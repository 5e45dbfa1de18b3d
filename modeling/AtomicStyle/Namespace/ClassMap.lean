import AtomicStyle.Value

/-!
# Class maps

A compiled namespace maps each property to the classes that realise it, or to nothing when the
namespace takes earlier classes for the property away.  Merging several maps gives the class text
of an element: the last map that has a property decides about it, and the property keeps the place
where it first came.

* `ClassMap` - property and classes, in order;
* `ClassMap.put` - an entry put in the place of the one with the same key, or at the end;
* `mergeMaps`, `mergeClasses` - several maps, of which some may be absent, as one map and as the
  class text of an element.
-/

namespace AtomicStyle

/-- The classes of each property, in order. -/
abbrev ClassMap := List (Key × Option String)

/-- The texts with one space between them. -/
def spaced (texts : List String) : String :=
  String.intercalate " " texts

/-- The classes of a property as one text, or nothing when there are none. -/
def classText? (identifiers : List String) : Option String :=
  if identifiers.isEmpty then none else some (spaced identifiers)

namespace ClassMap

/-- The map with an entry in the place of the one with the same key, or at the end. -/
def put (key : Key) (classes : Option String) : ClassMap → ClassMap
  | [] => [(key, classes)]
  | (k, c) :: rest => if k = key then (k, classes) :: rest else (k, c) :: put key classes rest

/-- The map with the entries of another one put into it in order. -/
def putAll (map other : ClassMap) : ClassMap :=
  other.foldl (fun m entry => m.put entry.1 entry.2) map

/-- The classes of a map that are there, in order. -/
def present (map : ClassMap) : List String :=
  (map.filterMap Prod.snd).filter fun classes => !classes.isEmpty

end ClassMap

/-- The map that several maps make up together.  An absent map is passed over. -/
def mergeMaps (maps : List (Option ClassMap)) : ClassMap :=
  maps.foldl (fun merged map => ClassMap.putAll merged (map.getD [])) []

/-- The class text of several maps, of which some may be absent. -/
def mergeClasses (maps : List (Option ClassMap)) : String :=
  spaced (mergeMaps maps).present

end AtomicStyle
