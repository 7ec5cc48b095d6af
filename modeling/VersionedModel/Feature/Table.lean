import VersionedModel.Feature.Basic

/-!
# Feature tables

A table holds features by name, in the order in which their names first came. Features with one
name form layers, oldest first; one that is overriding takes the place of all layers before it.
The newest layer is the one that counts when a feature is looked up.
-/

namespace VersionedModel

/-- Layers of features by name. -/
structure FeatureTable where
  /-- Each name with its layers, oldest first. -/
  entries : List (String × List Feature)

namespace FeatureTable

/-- The table without features. -/
def empty : FeatureTable := ⟨[]⟩

/-- Add a feature to a list of entries. -/
def insertInto (f : Feature) : List (String × List Feature) → List (String × List Feature)
  | [] => [(f.name, [f])]
  | (name, layers) :: rest =>
    if name = f.name then (name, if f.overriding then [f] else layers ++ [f]) :: rest
    else (name, layers) :: insertInto f rest

/-- Add a feature. -/
def insert (t : FeatureTable) (f : Feature) : FeatureTable :=
  ⟨insertInto f t.entries⟩

/-- Add features one after the other. -/
def insertAll (t : FeatureTable) (fs : List Feature) : FeatureTable :=
  fs.foldl insert t

/-- The layers of a name, oldest first. -/
def layers (t : FeatureTable) (name : String) : List Feature :=
  ((t.entries.find? fun e => e.1 == name).map Prod.snd).getD []

/-- The feature of a name: the newest layer. -/
def get? (t : FeatureTable) (name : String) : Option Feature :=
  (t.layers name).getLast?

/-- Whether there is a feature of a name. -/
def contains (t : FeatureTable) (name : String) : Bool :=
  !(t.layers name).isEmpty

/-- The names, in order. -/
def names (t : FeatureTable) : List String :=
  t.entries.map Prod.fst

/-- All layers of all names, in order. -/
def features (t : FeatureTable) : List Feature :=
  t.entries.flatMap Prod.snd

/-- The number of names. -/
def size (t : FeatureTable) : Nat :=
  t.entries.length

end FeatureTable

end VersionedModel
