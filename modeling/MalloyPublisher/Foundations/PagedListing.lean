import Mathlib.Data.List.Perm.Basic

/-!
# Listings in pages

An object store lists the keys that a query selects, page by page: a response says whether another
follows, and carries the token that leads to it. A client that follows the tokens to the end has
read every key that is selected, however the store cuts its pages.

## Main definitions

* `KeyQuery` — a prefix, and a delimiter that must not follow it
* `ObjectBucket` — the keys, and the pages of each listing
* `collect` — the loop over the responses

## Main results

* `perm_collect` — the loop reads the keys that are selected
-/

namespace MalloyPublisher.Foundations

/-- What is listed: the keys with a prefix, and with a delimiter those without one behind it. -/
structure KeyQuery where
  startsWith : List Char
  delimiter : Option Char

def KeyQuery.selects (query : KeyQuery) (key : List Char) : Bool :=
  query.startsWith.isPrefixOf key &&
    match query.delimiter with
    | none => true
    | some delimiter => delimiter ∉ key.drop query.startsWith.length

/-- A bucket, and how the store cuts its listings into pages. No object has an empty key. -/
structure ObjectBucket where
  keys : List (List Char)
  distinct : keys.Nodup
  named : [] ∉ keys
  pages : KeyQuery → List (List (List Char))
  served : ∀ query, (pages query).flatten.Perm (keys.filter query.selects)

/-- One answer of the store. -/
structure ListResponse where
  contents : List (List Char)
  isTruncated : Bool

/-- The answers in the order in which their tokens lead from one to the next. -/
def responsesOf : List (List (List Char)) → List ListResponse
  | [] => [⟨[], false⟩]
  | [page] => [⟨page, false⟩]
  | page :: next :: pages => ⟨page, true⟩ :: responsesOf (next :: pages)

def ObjectBucket.responses (bucket : ObjectBucket) (query : KeyQuery) : List ListResponse :=
  responsesOf (bucket.pages query)

/-- The loop that asks for a page and goes on while the answer is cut short. -/
def collect (keep : List Char → Bool) : List ListResponse → List (List Char)
  | [] => []
  | response :: later =>
    response.contents.filter keep ++ if response.isTruncated then collect keep later else []

theorem collect_responsesOf (keep : List Char → Bool) (pages : List (List (List Char))) :
    collect keep (responsesOf pages) = pages.flatten.filter keep := by
  induction pages using responsesOf.induct with
  | case1 => rfl
  | case2 page => simp [responsesOf, collect]
  | case3 page next pages ih =>
    rw [responsesOf, collect, if_pos rfl, ih, ← List.filter_append]
    rfl

/-- The loop reads the keys that are selected and kept. -/
theorem perm_collect (bucket : ObjectBucket) (query : KeyQuery) (keep : List Char → Bool) :
    (collect keep (bucket.responses query)).Perm
      ((bucket.keys.filter query.selects).filter keep) := by
  rw [ObjectBucket.responses, collect_responsesOf]
  exact (bucket.served query).filter keep

theorem mem_collect {bucket : ObjectBucket} {query : KeyQuery} {keep : List Char → Bool}
    {key : List Char} : key ∈ collect keep (bucket.responses query) ↔
      key ∈ bucket.keys ∧ query.selects key = true ∧ keep key = true := by
  rw [(perm_collect bucket query keep).mem_iff, List.mem_filter, List.mem_filter, and_assoc]

theorem nodup_collect (bucket : ObjectBucket) (query : KeyQuery) (keep : List Char → Bool) :
    (collect keep (bucket.responses query)).Nodup :=
  (perm_collect bucket query keep).nodup_iff.mpr ((bucket.distinct.filter _).filter _)

end MalloyPublisher.Foundations
