import Reconcile.Wire

/-!
# Object metadata

What the API server keeps of every object beside its own content: its name or the beginning of a
name to be completed, its namespace, its labels and annotations, and what the server assigns.
-/

namespace Reconcile

/-- The metadata of an object. -/
structure ObjectMeta where
  name : Option String := none
  generateName : Option String := none
  ns : Option String := none
  labels : Option (Dict String) := none
  annotations : Option (Dict String) := none
  generation : Option Int64 := none
  resourceVersion : Option String := none
  selfLink : Option String := none
  uid : Option String := none
  deriving DecidableEq, Inhabited

namespace ObjectMeta

/-- The wire form of metadata. -/
def toJson (m : ObjectMeta) : Json :=
  Wire.object
    [("annotations", Wire.texts m.annotations),
     ("generateName", Wire.text m.generateName),
     ("generation", Wire.int64 m.generation),
     ("labels", Wire.texts m.labels),
     ("name", Wire.text m.name),
     ("namespace", Wire.text m.ns),
     ("resourceVersion", Wire.text m.resourceVersion),
     ("selfLink", Wire.text m.selfLink),
     ("uid", Wire.text m.uid)]

/-- The metadata of a wire form. -/
def ofJson? (value : Json) : Option ObjectMeta := do
  let fields ← value.obj?
  some {
    name := ← Wire.field? Json.str? fields "name"
    generateName := ← Wire.field? Json.str? fields "generateName"
    ns := ← Wire.field? Json.str? fields "namespace"
    labels := ← Wire.field? Wire.texts? fields "labels"
    annotations := ← Wire.field? Wire.texts? fields "annotations"
    generation := ← Wire.field? Json.int64? fields "generation"
    resourceVersion := ← Wire.field? Json.str? fields "resourceVersion"
    selfLink := ← Wire.field? Json.str? fields "selfLink"
    uid := ← Wire.field? Json.str? fields "uid" }

end ObjectMeta

end Reconcile
