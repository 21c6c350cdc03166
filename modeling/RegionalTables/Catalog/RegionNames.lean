import RegionalTables.Json.Shape

/-! The known regions and their display names. -/
namespace RegionalTables

structure RegionNames where
  names : SortedMap String String
  deriving DecidableEq

namespace RegionNames

def empty : RegionNames := ⟨.empty⟩

def contains (n : RegionNames) (region : String) : Bool := n.names.contains region

/-- The display name of a region, which is its id if the region is not known. -/
def label (n : RegionNames) (region : String) : String := (n.names.find? region).getD region

def ofTree? (depth : Nat) (t : Json.Tree) : Option RegionNames :=
  (Json.Shape.map? (fun _ => Json.Shape.string?) depth t).map RegionNames.mk

def read? (text : String) : Option RegionNames :=
  (Json.Tree.read? text.toList).bind (ofTree? Json.depthLimit)

end RegionNames

end RegionalTables
