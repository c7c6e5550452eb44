import Mathlib.Data.List.Nodup
import Mathlib.Data.List.Pairwise

/-!
# The local database files of an environment

A DuckDB connection keeps its local file in the directory of its environment, under its name and
`.duckdb`; a DuckLake connection under its name and `_ducklake.duckdb`. A storage destination is a
DuckLake, and has its file in a directory below. One file is one pooled instance, so that two
connections with one file read through each other.

## Main definitions

* `assembleEnvironmentConnections`, `validateStorageDestinations` — the two lists and their files
* `FilesApart` — no two entries of the two lists share a file, and each is where it belongs
* `DeletesOwn` — deleting the file of a DuckLake connection takes no other connection's

## Main results

* `assembleEnvironmentConnections_eq_ok` — the files of a list that is accepted
* `filesApart_iff`, `deletesOwn_iff` — where files are apart, and where a delete takes its own
-/

namespace MalloyPublisher.Duckdb

/-! ## Paths -/

/-- The segments of an absolute path, normalized. -/
abbrev Path := List (List Char)

/-- Append a segment, as `path.normalize` takes it. -/
def Path.push (path : Path) (segment : List Char) : Path :=
  if segment = [] ∨ segment = ['.'] then path
  else if segment = ['.', '.'] then path.dropLast
  else path ++ [segment]

/-- `path.join` of a directory and a text. -/
def Path.join (root : Path) (text : List Char) : Path := (text.splitOn '/').foldl Path.push root

/-- `path.resolve` of a directory and a text, which counts for itself if it is absolute. -/
def Path.resolve (root : Path) (text : List Char) : Path :=
  if text.head? = some '/' then Path.join [] text else root.join text

/-- The resolved path, refused if it is outside of the root. -/
def safeJoinUnderRoot (root : Path) (text : List Char) : Option Path :=
  if root <+: root.resolve text then some (root.resolve text) else none

/-- The names `assertSafePackageName` lets pass. -/
def isSafeName (name : List Char) : Bool :=
  name.all (fun c => c.isAlphanum || c == '.' || c == '_' || c == '-') &&
    decide (0 < name.length ∧ name.length ≤ 255 ∧ name.head? ≠ some '.')

/-! ## The two lists -/

inductive ConnectionType
  | postgres
  | mysql
  | bigquery
  | snowflake
  | trino
  | databricks
  | duckdb
  | motherduck
  | ducklake
  | publisher
  deriving DecidableEq, Repr

/-- A connection as it is declared. No type stands for one that is not supported. -/
structure DeclaredConnection where
  name : List Char
  type : Option ConnectionType
  attachedNames : List (List Char)
  /-- What the checks of its config answer. -/
  checks : Except String Unit

/-- What is kept of a connection beside its config. -/
structure ConnectionMetadata where
  name : List Char
  isDuckLake : Bool
  databasePath : Option Path

def ducklakeFile (name : List Char) : List Char := name ++ "_ducklake.duckdb".toList

def duckdbFile (name : List Char) : List Char := name ++ ".duckdb".toList

/-- The local file of a connection, where its type has one. -/
def databasePath (environmentPath : Path) (connection : DeclaredConnection) : Option Path :=
  match connection.type with
  | some .ducklake => some (environmentPath.join (ducklakeFile connection.name))
  | some .duckdb => some (environmentPath.join (duckdbFile connection.name))
  | _ => none

def connectionMetadata (environmentPath : Path) (connection : DeclaredConnection) :
    ConnectionMetadata where
  name := connection.name
  isDuckLake := connection.type = some .ducklake
  databasePath := databasePath environmentPath connection

/-- Check one connection. -/
def checkConnection (connection : DeclaredConnection) : Except String Unit :=
  if connection.name = [] then .error "Invalid connection configuration. No name."
  else if connection.name = "duckdb".toList then
    .error "Connection name 'duckdb' is reserved for per-package sandboxes."
  else
    match connection.checks, connection.type with
    | .error error, _ => .error error
    | .ok (), none => .error "Unsupported connection type"
    | .ok (), some .duckdb =>
      if connection.attachedNames.any (· = connection.name) then
        .error "DuckDB attached database names cannot conflict with connection name"
      else .ok ()
    | .ok (), some _ => .ok ()

/-- The metadata of a list of connections. Of two with one name the first counts. -/
def assembleEnvironmentConnections (environmentPath : Path) (processed : List (List Char)) :
    List DeclaredConnection → Except String (List ConnectionMetadata)
  | [] => .ok []
  | connection :: later =>
    if processed.contains connection.name then
      assembleEnvironmentConnections environmentPath processed later
    else
      match checkConnection connection with
      | .error error => .error error
      | .ok () =>
        (assembleEnvironmentConnections environmentPath (connection.name :: processed) later).map
          (connectionMetadata environmentPath connection :: ·)

def storageDestinationRoot (environmentPath : Path) : Path :=
  environmentPath.join ".storage-destinations".toList

/-- The destinations that may be used. They have to be DuckLakes. -/
def validateStorageDestinations (seen : List (List Char)) :
    List DeclaredConnection → List DeclaredConnection
  | [] => []
  | destination :: later =>
    if destination.name ≠ [] ∧ destination.type = some .ducklake ∧
        destination.name ≠ "duckdb".toList ∧ seen.contains destination.name = false ∧ destination.checks = .ok ()
    then destination :: validateStorageDestinations (destination.name :: seen) later
    else validateStorageDestinations seen later

/-- The file `deleteDuckLakeConnectionFile` removes, where there is one. -/
def deletedFile (environmentPath : Path) (connectionName : List Char) : Option Path :=
  if isSafeName connectionName then
    safeJoinUnderRoot environmentPath (ducklakeFile connectionName)
  else none

/-- The directory a name leads into, from a root. -/
def folder (root : Path) (name : List Char) : Path :=
  (name.splitOn '/').dropLast.foldl Path.push root

/-- The part of a name after the last separator. -/
def baseName (name : List Char) : List Char := ((name.splitOn '/').getLast?).getD []

/-! ## Files of their own -/

/-- The files of both lists, in their order. -/
def databaseFiles (connections destinations : List ConnectionMetadata) : List Path :=
  (connections ++ destinations).filterMap ConnectionMetadata.databasePath

/-- The file of an entry is directly in its root. -/
def LiesIn (root : Path) (entries : List ConnectionMetadata) : Prop :=
  ∀ entry ∈ entries, ∀ path, entry.databasePath = some path → ∃ file, path = root ++ [file]

/-- No two entries of the lists share a file, and each file lies directly in the root of its
list. -/
structure FilesApart (environmentPath : Path) (connections destinations : List ConnectionMetadata) :
    Prop where
  distinct : (databaseFiles connections destinations).Nodup
  ofConnections : LiesIn environmentPath connections
  ofDestinations : LiesIn (storageDestinationRoot environmentPath) destinations

/-- What is deleted under the name of a DuckLake connection is no other connection's file. -/
def DeletesOwn (environmentPath : Path) (connections : List ConnectionMetadata)
    (connectionName : List Char) : Prop :=
  ∀ path, deletedFile environmentPath connectionName = some path →
    ∀ entry ∈ connections, entry.databasePath = some path →
      entry.isDuckLake = true ∧ entry.name = connectionName

/-- A name without path separators. -/
def Plain (name : List Char) : Prop := '/' ∉ name

instance (name : List Char) : Decidable (Plain name) := inferInstanceAs (Decidable (_ ∉ _))

/-- No DuckDB connection is named like the file of a DuckLake connection. -/
def NamesApart (connections : List DeclaredConnection) : Prop :=
  ∀ lake ∈ connections, lake.type = some .ducklake → ∀ local' ∈ connections,
    local'.type = some .duckdb → local'.name ≠ lake.name ++ "_ducklake".toList

/-- The names of destinations lead back to their root, and end apart. -/
structure DestinationsApart (root : Path) (destinations : List DeclaredConnection) : Prop where
  lead : ∀ destination ∈ destinations, folder root destination.name = root
  ends : (destinations.map fun destination => baseName destination.name).Nodup

section Paths

variable {root : Path} {name suffix : List Char}

/-- A suffix without a separator goes to the last part. -/
theorem splitOn_append (plain : '/' ∉ suffix) :
    (name ++ suffix).splitOn '/' = (name.splitOn '/').dropLast ++ [baseName name ++ suffix] := by
  unfold baseName
  induction name with
  | nil => simp [List.splitOn_eq_singleton plain]
  | cons c rest ih =>
    obtain ⟨part, parts, split⟩ := List.exists_cons_of_ne_nil (List.splitOn_ne_nil '/' rest)
    rw [List.cons_append, List.splitOn_cons_eq_if_modifyHead,
      List.splitOn_cons_eq_if_modifyHead, ih, split]
    split_ifs
    · simp
    · cases parts <;> simp

/-- The suffix of a file makes a segment that is neither empty nor dots. -/
theorem push_file {file : List Char} (long : 2 < file.length) :
    Path.push root file = root ++ [file] := by
  rw [Path.push, if_neg, if_neg]
  · rintro rfl
    simp at long
  · rintro (rfl | rfl) <;> simp at long

/-- The path of a file under a name: the folder the name leads into, and its last part. -/
theorem join_append (plain : '/' ∉ suffix) (long : 2 < suffix.length) :
    root.join (name ++ suffix) = folder root name ++ [baseName name ++ suffix] := by
  rw [Path.join, splitOn_append plain, List.foldl_append, List.foldl_cons, List.foldl_nil,
    push_file (by rw [List.length_append]; omega)]
  rfl

theorem folder_of_plain (plain : Plain name) : folder root name = root := by
  simp [folder, List.splitOn_eq_singleton plain]

theorem baseName_of_plain (plain : Plain name) : baseName name = name := by
  simp [baseName, List.splitOn_eq_singleton plain]

theorem join_ducklakeFile : root.join (ducklakeFile name) =
    folder root name ++ [ducklakeFile (baseName name)] :=
  join_append (by decide) (by decide)

theorem join_duckdbFile : root.join (duckdbFile name) =
    folder root name ++ [duckdbFile (baseName name)] :=
  join_append (by decide) (by decide)

theorem storageDestinationRoot_eq :
    storageDestinationRoot root = root ++ [".storage-destinations".toList] := by
  rw [storageDestinationRoot, Path.join, List.splitOn_eq_singleton (by decide), List.foldl_cons,
    List.foldl_nil, push_file (by decide)]

theorem ducklakeFile_injective : Function.Injective ducklakeFile :=
  fun _ _ same => List.append_cancel_right same

theorem duckdbFile_injective : Function.Injective duckdbFile :=
  fun _ _ same => List.append_cancel_right same

theorem ducklakeFile_eq : ducklakeFile name = duckdbFile (name ++ "_ducklake".toList) := by
  rw [ducklakeFile, duckdbFile, List.append_assoc]
  rfl

theorem plain_of_isSafeName (safe : isSafeName name = true) : Plain name := by
  intro separator
  rw [isSafeName, Bool.and_eq_true, List.all_eq_true] at safe
  exact absurd (safe.1 _ separator) (by decide)

theorem head?_of_isSafeName (safe : isSafeName name = true) :
    (ducklakeFile name).head? ≠ some '/' := by
  intro separator
  cases name with
  | nil => simp [isSafeName] at safe
  | cons c rest =>
    obtain rfl : c = '/' := Option.some.inj separator
    exact plain_of_isSafeName safe List.mem_cons_self

/-- The file that is deleted under a name, which is safe and so has no separator. -/
theorem deletedFile_eq_some_iff {path : Path} :
    deletedFile root name = some path ↔
      isSafeName name = true ∧ path = root ++ [ducklakeFile name] := by
  unfold deletedFile
  split_ifs with safe
  · have plain := plain_of_isSafeName safe
    have resolved : root.resolve (ducklakeFile name) = root ++ [ducklakeFile name] := by
      rw [Path.resolve, if_neg (head?_of_isSafeName safe), join_ducklakeFile,
        folder_of_plain plain, baseName_of_plain plain]
    simp [safeJoinUnderRoot, resolved, safe, eq_comm]
  · simp [safe]

/-- The file of a connection with a plain name. -/
theorem databasePath_eq_some_iff {connection : DeclaredConnection} {path : Path}
    (plain : Plain connection.name) :
    databasePath root connection = some path ↔
      connection.type = some .ducklake ∧ path = root ++ [ducklakeFile connection.name] ∨
      connection.type = some .duckdb ∧ path = root ++ [duckdbFile connection.name] := by
  unfold databasePath
  split
  · next isLake =>
    simp [isLake, join_ducklakeFile, folder_of_plain plain, baseName_of_plain plain, eq_comm]
  · next isLocal =>
    simp [isLocal, join_duckdbFile, folder_of_plain plain, baseName_of_plain plain, eq_comm]
  · next notLake notLocal =>
    refine ⟨nofun, ?_⟩
    rintro (⟨isLake, -⟩ | ⟨isLocal, -⟩)
    · exact (notLake isLake).elim
    · exact (notLocal isLocal).elim

end Paths

/-! ## The lists that are accepted -/

section Accepted

variable {root : Path} {connections declared : List DeclaredConnection}
  {entries : List ConnectionMetadata}

/-- A list with pairwise different names is assembled entry by entry. -/
theorem assembleEnvironmentConnections_eq_ok {processed : List (List Char)}
    (names : (connections.map DeclaredConnection.name).Nodup)
    (fresh : ∀ connection ∈ connections, connection.name ∉ processed)
    (accepted : assembleEnvironmentConnections root processed connections = .ok entries) :
    entries = connections.map (connectionMetadata root) := by
  induction connections generalizing processed entries with
  | nil =>
    cases accepted
    rfl
  | cons connection later ih =>
    have unseen := fresh connection List.mem_cons_self
    obtain ⟨apart, names⟩ := List.nodup_cons.mp names
    rw [assembleEnvironmentConnections, if_neg (by simpa using unseen)] at accepted
    cases check : checkConnection connection with
    | error error => simp [check] at accepted
    | ok _ =>
      simp only [check] at accepted
      cases rest : assembleEnvironmentConnections root (connection.name :: processed) later with
      | error error => simp [rest, Except.map] at accepted
      | ok kept =>
        rw [rest] at accepted
        have laterKept := ih names (fun other member seen => ?_) rest
        · rw [List.map_cons, ← laterKept]
          exact (Except.ok.inj accepted).symm
        · obtain same | before := List.mem_cons.mp seen
          · exact apart (same ▸ List.mem_map_of_mem member)
          · exact fresh other (List.mem_cons_of_mem _ member) before

/-- The destinations that may be used are DuckLakes, with pairwise different names. -/
theorem validateStorageDestinations_spec (seen : List (List Char)) :
    (∀ destination ∈ validateStorageDestinations seen declared,
      destination.type = some .ducklake ∧ destination.name ∉ seen) ∧
    ((validateStorageDestinations seen declared).map DeclaredConnection.name).Nodup := by
  induction declared generalizing seen with
  | nil => exact ⟨by simp [validateStorageDestinations], List.nodup_nil⟩
  | cons destination later ih =>
    rw [validateStorageDestinations]
    split_ifs with usable
    · obtain ⟨each, names⟩ := ih (destination.name :: seen)
      obtain ⟨-, isLake, -, unlisted, -⟩ := usable
      have unseen : destination.name ∉ seen := by simpa using unlisted
      constructor
      · intro other member
        obtain rfl | later := List.mem_cons.mp member
        · exact ⟨isLake, unseen⟩
        · exact ⟨(each other later).1, fun before =>
            (each other later).2 (List.mem_cons_of_mem _ before)⟩
      · refine List.nodup_cons.mpr ⟨fun twice => ?_, names⟩
        obtain ⟨other, member, same⟩ := List.mem_map.mp twice
        exact (each other member).2 (same ▸ List.mem_cons_self)
    · exact ih seen

end Accepted

/-! ## Where files are apart -/

section Apart

variable {root : Path} {connections destinations : List DeclaredConnection}

/-- The files of connections are pairwise different where their names are apart. -/
theorem nodup_files_iff (plain : ∀ connection ∈ connections, Plain connection.name)
    (names : (connections.map DeclaredConnection.name).Nodup) :
    (connections.filterMap (databasePath root)).Nodup ↔ NamesApart connections := by
  rw [List.Nodup, List.pairwise_filterMap]
  constructor
  · intro apart lake isListed isLake local' isListed' isLocal same
    have distinct : lake ≠ local' := by
      rintro rfl
      cases isLake.symm.trans isLocal
    have ofLake : databasePath root lake = some (root ++ [ducklakeFile lake.name]) :=
      (databasePath_eq_some_iff (plain lake isListed)).mpr (.inl ⟨isLake, rfl⟩)
    have ofLocal : databasePath root local' = some (root ++ [duckdbFile local'.name]) :=
      (databasePath_eq_some_iff (plain local' isListed')).mpr (.inr ⟨isLocal, rfl⟩)
    have : Std.Symm fun one other : DeclaredConnection =>
        ∀ path, databasePath root one = some path → ∀ path',
          databasePath root other = some path' → path ≠ path' :=
      ⟨fun _ _ differ _ ofOther _ ofOne => (differ _ ofOne _ ofOther).symm⟩
    refine apart.forall isListed isListed' distinct _ ofLake _ ofLocal ?_
    rw [same, ducklakeFile_eq]
  · intro apart
    refine (List.pairwise_map.mp names).imp_of_mem fun {one other} isListed isListed' differ => ?_
    intro path ofOne path' ofOther same
    rw [databasePath_eq_some_iff (plain one isListed)] at ofOne
    rw [databasePath_eq_some_iff (plain other isListed')] at ofOther
    obtain ⟨isLake, rfl⟩ | ⟨isLocal, rfl⟩ := ofOne <;>
      obtain ⟨isLake', rfl⟩ | ⟨isLocal', rfl⟩ := ofOther <;>
      have file := List.singleton_injective (List.append_cancel_left same)
    · exact differ (ducklakeFile_injective file)
    · rw [ducklakeFile_eq] at file
      exact apart one isListed isLake other isListed' isLocal' (duckdbFile_injective file).symm
    · rw [ducklakeFile_eq] at file
      exact apart other isListed' isLake' one isListed isLocal (duckdbFile_injective file)
    · exact differ (duckdbFile_injective file)

/-- The file of a destination is directly in its root where its name leads back there. -/
theorem liesIn_destinations_iff
    (lakes : ∀ destination ∈ destinations, destination.type = some .ducklake) :
    LiesIn root (destinations.map (connectionMetadata root)) ↔
      ∀ destination ∈ destinations, folder root destination.name = root := by
  constructor
  · intro lies destination isListed
    have file : (connectionMetadata root destination).databasePath =
        some (folder root destination.name ++ [ducklakeFile (baseName destination.name)]) := by
      simp only [connectionMetadata, databasePath, lakes destination isListed, join_ducklakeFile]
    obtain ⟨_, same⟩ := lies _ (List.mem_map_of_mem isListed) _ file
    exact (List.append_singleton_inj.mp same).1
  · intro lead entry isListed path file
    obtain ⟨destination, among, rfl⟩ := List.mem_map.mp isListed
    simp only [connectionMetadata, databasePath, lakes destination among, join_ducklakeFile,
      lead destination among] at file
    exact ⟨_, (Option.some.inj file).symm⟩

/-- The files of destinations that lead back to their root. -/
theorem files_destinations
    (lakes : ∀ destination ∈ destinations, destination.type = some .ducklake)
    (lead : ∀ destination ∈ destinations, folder root destination.name = root) :
    destinations.filterMap (databasePath root) =
      (destinations.map fun destination => baseName destination.name).map
        fun base => root ++ [ducklakeFile base] := by
  induction destinations with
  | nil => rfl
  | cons destination later ih =>
    have file : databasePath root destination =
        some (root ++ [ducklakeFile (baseName destination.name)]) := by
      simp only [databasePath, lakes destination List.mem_cons_self, join_ducklakeFile,
        lead destination List.mem_cons_self]
    rw [List.filterMap_cons_some file, List.map_cons, List.map_cons,
      ih (fun other member => lakes other (List.mem_cons_of_mem _ member))
        (fun other member => lead other (List.mem_cons_of_mem _ member))]

theorem databaseFiles_map (store : Path) :
    databaseFiles (connections.map (connectionMetadata root))
        (destinations.map (connectionMetadata store)) =
      connections.filterMap (databasePath root) ++ destinations.filterMap (databasePath store) := by
  rw [databaseFiles, List.filterMap_append, List.filterMap_map, List.filterMap_map]
  rfl

/-- The file of a connection is no deeper than the files of destinations. -/
theorem length_of_connection (plain : ∀ connection ∈ connections, Plain connection.name)
    {path : Path} (member : path ∈ connections.filterMap (databasePath root)) :
    ∃ file, path = root ++ [file] := by
  obtain ⟨connection, isListed, file⟩ := List.mem_filterMap.mp member
  rw [databasePath_eq_some_iff (plain connection isListed)] at file
  obtain ⟨-, rfl⟩ | ⟨-, rfl⟩ := file <;> exact ⟨_, rfl⟩

/-- Files are apart exactly where the names of connections are apart, and those of destinations
lead back to their root and end apart. -/
theorem filesApart_map_iff (plain : ∀ connection ∈ connections, Plain connection.name)
    (names : (connections.map DeclaredConnection.name).Nodup)
    (lakes : ∀ destination ∈ destinations, destination.type = some .ducklake) :
    FilesApart root (connections.map (connectionMetadata root))
        (destinations.map (connectionMetadata (storageDestinationRoot root))) ↔
      NamesApart connections ∧ DestinationsApart (storageDestinationRoot root) destinations := by
  have inRoot : LiesIn root (connections.map (connectionMetadata root)) := by
    intro entry isListed path file
    obtain ⟨connection, among, rfl⟩ := List.mem_map.mp isListed
    exact length_of_connection plain (List.mem_filterMap.mpr ⟨connection, among, file⟩)
  have injective : Function.Injective fun base : List Char =>
      storageDestinationRoot root ++ [ducklakeFile base] := fun _ _ same =>
    ducklakeFile_injective (List.singleton_injective (List.append_cancel_left same))
  constructor
  · rintro ⟨distinct, -, inStore⟩
    have lead := (liesIn_destinations_iff lakes).mp inStore
    rw [databaseFiles_map, List.nodup_append', files_destinations lakes lead,
      nodup_files_iff plain names, List.nodup_map_iff injective] at distinct
    exact ⟨distinct.1, lead, distinct.2.1⟩
  · rintro ⟨apart, lead, ends⟩
    refine ⟨?_, inRoot, (liesIn_destinations_iff lakes).mpr lead⟩
    rw [databaseFiles_map, List.nodup_append', files_destinations lakes lead,
      nodup_files_iff plain names, List.nodup_map_iff injective]
    refine ⟨apart, ends, ?_⟩
    -- A file of the one list is one segment below the root, of the other two.
    intro path ofConnection ofDestination
    obtain ⟨_, rfl⟩ := length_of_connection plain ofConnection
    obtain ⟨_, -, same⟩ := List.mem_map.mp ofDestination
    have long := congrArg List.length same
    simp [storageDestinationRoot_eq] at long

/-- A delete takes its own file where no DuckDB connection is named like it. -/
theorem deletesOwn_map_iff (plain : ∀ connection ∈ connections, Plain connection.name)
    (connectionName : List Char) :
    DeletesOwn root (connections.map (connectionMetadata root)) connectionName ↔
      (isSafeName connectionName = true → ∀ connection ∈ connections,
        connection.type = some .duckdb → connection.name ≠ connectionName ++ "_ducklake".toList) := by
  constructor
  · intro deletes safe connection isListed isLocal same
    have file : databasePath root connection = some (root ++ [ducklakeFile connectionName]) := by
      rw [databasePath_eq_some_iff (plain connection isListed), ducklakeFile_eq, ← same]
      exact .inr ⟨isLocal, rfl⟩
    have own := (deletes _ (deletedFile_eq_some_iff.mpr ⟨safe, rfl⟩) _
      (List.mem_map_of_mem isListed) file).1
    simp [connectionMetadata, isLocal] at own
  · rintro differs path deleted entry isListed file
    obtain ⟨safe, rfl⟩ := deletedFile_eq_some_iff.mp deleted
    obtain ⟨connection, among, rfl⟩ := List.mem_map.mp isListed
    obtain ⟨isLake, same⟩ | ⟨isLocal, same⟩ :=
      (databasePath_eq_some_iff (plain connection among)).mp file
    · have named := ducklakeFile_injective (List.singleton_injective (List.append_cancel_left same))
      exact ⟨by simp [connectionMetadata, isLake], named.symm⟩
    · have named := List.singleton_injective (List.append_cancel_left same)
      rw [ducklakeFile_eq] at named
      exact (differs safe connection among isLocal (duckdbFile_injective named).symm).elim

end Apart

/-- For lists that are accepted: no two entries share a file, each in its own root, exactly where
the names of connections are apart and those of destinations lead back to their root and end apart;
and a delete takes its own file exactly where no DuckDB connection is named like it. -/
theorem ownFiles_iff {environmentPath : Path} {connections declared : List DeclaredConnection}
    {entries stored : List ConnectionMetadata}
    (plain : ∀ connection ∈ connections, Plain connection.name)
    (names : (connections.map DeclaredConnection.name).Nodup)
    (accepted : assembleEnvironmentConnections environmentPath [] connections = .ok entries)
    (acceptedToo : assembleEnvironmentConnections (storageDestinationRoot environmentPath) []
      (validateStorageDestinations [] declared) = .ok stored) :
    (FilesApart environmentPath entries stored ↔
      NamesApart connections ∧ DestinationsApart (storageDestinationRoot environmentPath)
        (validateStorageDestinations [] declared)) ∧
    ∀ connectionName, DeletesOwn environmentPath entries connectionName ↔
      (isSafeName connectionName = true → ∀ connection ∈ connections,
        connection.type = some .duckdb → connection.name ≠ connectionName ++ "_ducklake".toList) := by
  obtain ⟨lakes, distinct⟩ := validateStorageDestinations_spec []
  obtain rfl := assembleEnvironmentConnections_eq_ok names (by simp) accepted
  obtain rfl := assembleEnvironmentConnections_eq_ok distinct (by simp) acceptedToo
  exact ⟨filesApart_map_iff plain names fun destination member => (lakes destination member).1,
    deletesOwn_map_iff plain⟩

/-! ## A shared file -/

/-- A DuckLake connection `sales` beside a DuckDB connection of some name. -/
def besideSales (name : String) : List DeclaredConnection :=
  [{ name := "sales".toList, type := some .ducklake, attachedNames := [], checks := .ok () },
   { name := name.toList, type := some .duckdb, attachedNames := [], checks := .ok () }]

/-- Beside a connection of another name, with a destination of the same, the files are apart. -/
theorem ownFiles_sales :
    (∀ connection ∈ besideSales "scratch", Plain connection.name) ∧
      FilesApart [] ((besideSales "scratch").map (connectionMetadata []))
        ((validateStorageDestinations [] (besideSales "scratch")).map
          (connectionMetadata (storageDestinationRoot []))) := by
  have plain : ∀ connection ∈ besideSales "scratch", Plain connection.name := by decide
  have stored : assembleEnvironmentConnections (storageDestinationRoot []) []
      (validateStorageDestinations [] (besideSales "scratch")) = .ok _ := rfl
  exact ⟨plain, (ownFiles_iff plain (by decide) rfl stored).1.mpr
    ⟨by unfold NamesApart; decide, by decide, by decide⟩⟩

/-- A DuckDB connection that is named like the file of a DuckLake connection shares it. -/
theorem salesDucklake_shared :
    ¬∀ (environmentPath : Path) (connections declared : List DeclaredConnection)
      (entries stored : List ConnectionMetadata),
      (∀ connection ∈ connections, Plain connection.name) →
      (connections.map DeclaredConnection.name).Nodup →
      assembleEnvironmentConnections environmentPath [] connections = .ok entries →
      assembleEnvironmentConnections (storageDestinationRoot environmentPath) []
        (validateStorageDestinations [] declared) = .ok stored →
      FilesApart environmentPath entries stored ∧
        ∀ connectionName, DeletesOwn environmentPath entries connectionName := by
  intro always
  have apart := (always [] (besideSales "sales_ducklake") [] _ _ (by decide) (by decide) rfl rfl).1
  exact absurd apart.distinct (by decide)

end MalloyPublisher.Duckdb
