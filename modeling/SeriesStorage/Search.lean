import SeriesStorage.Error

/-!
# Searching for a series

A search names a series.  Backends serve plain searches only (`Search.validate`): no combination
with other searches, equality as comparison, and no tag.
-/

namespace SeriesStorage

/-- How a search compares. -/
inductive Comparison
  | equals
  | notEquals
deriving DecidableEq, Repr, Inhabited

/-- A search for a series. -/
structure Search where
  ns : Namespace
  name : String
  tag : Option String
  comparison : Comparison
  /-- Searches that must all hold as well. -/
  allOf : Option (List Search)
  /-- Searches of which one must hold as well. -/
  anyOf : Option (List Search)

namespace Search

/-- The plain search for a name. -/
def byName (ns : Namespace) (name : String) : Search := ⟨ns, name, none, .equals, none, none⟩

/-- Refuses what no backend supports; the first defect counts. -/
def validate (search : Search) : Except Error Unit :=
  if search.allOf.isSome then .error (.invalidQuery .conjunction)
  else if search.anyOf.isSome then .error (.invalidQuery .disjunction)
  else if search.comparison = .notEquals then .error (.invalidQuery .inequality)
  else if search.tag.any (!·.isEmpty) then .error (.invalidQuery .tag)
  else .ok ()

end Search

end SeriesStorage
