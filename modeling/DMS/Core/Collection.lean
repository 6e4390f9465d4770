import DMS.Core.GoValue

/-! # Collections of documents

The document database as its users see it: a collection is filtered, sorted and cut off.
How equal documents are sorted is up to the database, but it is the same in every query.
-/

namespace DMS

structure SortOption where
  field : GoString
  direction : Int
deriving DecidableEq, Repr

structure Collection (D : Type) where
  docs : List D
  arrange : SortOption → List D → List D
  perm : ∀ option l, (arrange option l).Perm l

namespace Collection

variable {D : Type} (db : Collection D) (criteria : D → Bool)

/-- `Query.Limit`. A negative number is no limit. -/
def limit (n : Int) (l : List D) : List D := if n < 0 then l else l.take n.toNat

def count : Int := (db.docs.filter criteria).length

def findFirst : Option D := db.docs.find? criteria

/-- `FindAll` of a query that sorts. -/
def findSorted (sort : SortOption) : List D :=
  db.arrange sort (db.docs.filter criteria)

/-- `FindAll` of a query that sorts and limits. -/
def findAll (sort : SortOption) (n : Int) : List D :=
  limit n (db.findSorted criteria sort)

/-- `Update`: every document that meets the criteria is changed. -/
def update (f : D → D) : Collection D :=
  { db with docs := db.docs.map fun d => if criteria d then f d else d }

end Collection

end DMS
