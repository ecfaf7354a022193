import Mathlib.Data.List.Basic
import Reconcile.Metadata.Declaration
import Reconcile.Proofs.Change.Places
import Reconcile.Proofs.Wire.Fields

/-!
# Labels and annotations on the wire

The labels and the annotations of an object are two members of the wire form of its metadata.
The edits of an update make the new map of either member, if the object has the map that they start
from (`performAll?_member`), and metadata are read from their wire form (`ofJson?_toJson`).
-/

namespace Reconcile

/-- The map that the edits to a new one leave, if the object has what they start from: a map that
the object already has stays, even if it loses its last key. -/
def Change.nextTexts (live : Option (Dict String)) (new : Dict String) : Option (Dict String) :=
  match live with
  | none => ObjectMeta.nonEmpty? new
  | some _ => some new

/-- A map that is left out where it is empty is the same map. -/
theorem ObjectMeta.nonEmpty?_getD (d : Dict String) : (nonEmpty? d).getD Dict.empty = d := by
  unfold nonEmpty?
  split
  · rename_i hempty
    exact (Dict.isEmpty_iff.1 hempty).symm
  · rfl

/-- An empty map is left out. -/
theorem ObjectMeta.nonEmpty?_ne (d : Dict String) : nonEmpty? d ≠ some Dict.empty := by
  unfold nonEmpty?
  split
  · exact fun h => nomatch h
  · rename_i hempty
    rintro ⟨⟩
    exact hempty rfl

/-- A map that is not there as an empty one is left out where it is empty. -/
theorem ObjectMeta.nonEmpty?_of_getD {value : Option (Dict String)} (h : value ≠ some Dict.empty) :
    nonEmpty? (value.getD Dict.empty) = value := by
  cases value with
  | none => rfl
  | some d =>
      have hempty : ¬ d.isEmpty = true := fun hd => h (congrArg some (Dict.isEmpty_iff.1 hd))
      exact if_neg hempty

/-- A map that is not left out has a key. -/
theorem ObjectMeta.nonEmpty?_eq_none_or (d : Dict String) :
    nonEmpty? d = none ∨ ((nonEmpty? d).getD Dict.empty).isEmpty = false := by
  unfold nonEmpty?
  split
  · exact .inl rfl
  · rename_i hempty
    exact .inr (Bool.eq_false_iff.2 hempty)

/-- The edits make the new map, whether the object had one or not. -/
theorem Change.nextTexts_getD (live : Option (Dict String)) (new : Dict String) :
    (nextTexts live new).getD Dict.empty = new := by
  cases live with
  | some _ => rfl
  | none => exact ObjectMeta.nonEmpty?_getD new

/-- A map that is left as it is was not there before. -/
theorem Change.texts_nextTexts_or (live : Option (Dict String)) (new : Dict String) :
    (Wire.texts (nextTexts live new) <|> Wire.texts live) = Wire.texts (nextTexts live new) := by
  cases live with
  | none =>
      cases Wire.texts (nextTexts none new) with
      | none => rfl
      | some value => rfl
  | some d => rfl

/-- Edits that start from the map of an object make the new map of it. -/
theorem Change.merged_texts (old new : Dict String) :
    Json.obj (merged old new (old.entries.map fun (k, v) => (k, .str v))) = Json.ofTexts new := by
  refine congrArg Json.obj (Entries.Ascending.ext
    (ascending_merged (Entries.Ascending.map_value old.ascending Json.str))
    (Entries.Ascending.map_value new.ascending Json.str) fun k => ?_)
  have hold : (old.entries.map fun (k, v) => (k, Json.str v)).lookup k =
      (old.get? k).map Json.str := Entries.lookup_map_value Json.str old.entries k
  have hnew : (new.entries.map fun (k, v) => (k, Json.str v)).lookup k =
      (new.get? k).map Json.str := Entries.lookup_map_value Json.str new.entries k
  rw [lookup_merged, hold, hnew]
  cases hvalue : new.get? k with
  | some v =>
      by_cases hsame : old.get? k = some v
      · simp [hsame]
      · simp [hsame]
  | none =>
      cases old.get? k with
      | none => rfl
      | some v => rfl

/-- A map of texts can take the edits that start from it. -/
theorem Change.mergeable_texts {live : Option (Dict String)} {old : Dict String}
    (h : live.getD Dict.empty = old) : Mergeable old (Wire.texts live) := by
  cases live with
  | none => exact h.symm
  | some d =>
      refine ⟨_, rfl, fun k hk => ?_⟩
      have hd : d = old := h
      rw [Entries.lookup_map_value Json.str d.entries k, Option.isSome_map, hd]
      exact hk

/-- Edits that start from a member of an object set that member. -/
theorem Change.withTexts_texts {inner : Json.Fields} {name : String} {live : Option (Dict String)}
    {old new : Dict String} (hlookup : inner.lookup name = Wire.texts live)
    (hold : live.getD Dict.empty = old) :
    withTexts name old new inner = Block.put inner name (Wire.texts (nextTexts live new)) := by
  rw [withTexts, hlookup]
  cases live with
  | none =>
      rw [nextTexts, ObjectMeta.nonEmpty?]
      show (if new.isEmpty = true then inner else _) = _
      split
      · rfl
      · rfl
  | some d =>
      obtain rfl : d = old := hold
      show Entries.insert name (.obj (merged d new (d.entries.map fun (k, v) => (k, .str v)))) inner
        = Entries.insert name (Json.ofTexts new) inner
      rw [merged_texts]

/-- The edits of an update set a map that is what they start from. -/
theorem Change.performAll?_member {paths : List MutablePath} {live : Json}
    {document inner : Json.Fields} {outer name pointer : String} {texts : Option (Dict String)}
    (new : Dict String) (hplace : isTextMap paths pointer = true)
    (htrim : Text.trimEnd '/' pointer = pointer)
    (htokens : Json.Pointer.tokens? pointer = some [outer, name])
    (hdocument : Entries.Ascending document) (hinner : Entries.Ascending inner)
    (houter : document.lookup outer = some (.obj inner))
    (hname : inner.lookup name = Wire.texts texts)
    (hlive : Json.Pointer.find? pointer live = Wire.texts texts) :
    Json.Edit.performAll? (rebase paths live (ofTextMaps pointer (texts.getD Dict.empty) new))
        (.obj document) =
      some (.obj (Entries.insert outer
        (.obj (Block.put inner name (Wire.texts (nextTexts texts new)))) document)) := by
  rw [performAll?_texts hplace htrim htokens hdocument hinner houter (hlive.trans hname.symm)
    (by rw [hname]; exact (mergeable_texts rfl).editable new), withTexts_texts hname rfl]

/-- The map of texts at a place of a document, empty where there is none. -/
def Wire.textsAt? (pointer : String) (document : Json) : Option (Dict String) :=
  match Json.Pointer.find? pointer document with
  | none => some Dict.empty
  | some value => Wire.texts? value

/-- A map of a document is read where it lies. -/
theorem Wire.textsAt?_eq {pointer : String} {document : Json} {d : Option (Dict String)}
    (h : Json.Pointer.find? pointer document = Wire.texts d) :
    Wire.textsAt? pointer document = some (d.getD Dict.empty) := by
  rw [textsAt?, h]
  cases d with
  | none => rfl
  | some texts => exact Wire.texts?_ofTexts texts

namespace ObjectMeta

/-- The check for a name passes where there is one. -/
theorem requireName_eq_ok {block : Block} {u : Unit} :
    requireName block = .ok u ↔ hasName block = true := by
  unfold requireName
  split
  · rename_i h
    simp [h]
  · rename_i h
    simp [h]

/-- The members of the wire form of metadata. -/
def fields (m : ObjectMeta) : Json.Fields := (m.toJson.obj?).getD []

theorem toJson_eq (m : ObjectMeta) : m.toJson = .obj m.fields := rfl

/-- The members of the wire form of metadata are in the order of their keys. -/
theorem ascending_fields (m : ObjectMeta) : Entries.Ascending m.fields :=
  Block.ascending_ofFields _

/-- What the wire form of metadata holds under a key. -/
theorem lookup_fields (m : ObjectMeta) (k : String) : m.fields.lookup k =
    (List.lookup k
      [("annotations", Wire.texts m.annotations),
       ("generateName", Wire.text m.generateName),
       ("generation", Wire.int64 m.generation),
       ("labels", Wire.texts m.labels),
       ("name", Wire.text m.name),
       ("namespace", Wire.text m.ns),
       ("resourceVersion", Wire.text m.resourceVersion),
       ("selfLink", Wire.text m.selfLink),
       ("uid", Wire.text m.uid)]).join :=
  Block.lookup_ofFields (by simp) k

theorem lookup_labels (m : ObjectMeta) : m.fields.lookup "labels" = Wire.texts m.labels :=
  m.lookup_fields "labels"

theorem lookup_annotations (m : ObjectMeta) :
    m.fields.lookup "annotations" = Wire.texts m.annotations :=
  m.lookup_fields "annotations"

/-- Metadata are read from their wire form. -/
theorem ofJson?_toJson (m : ObjectMeta) : ofJson? m.toJson = some m := by
  have hname := Wire.field?_text (m.lookup_fields "name")
  have hgenerateName := Wire.field?_text (m.lookup_fields "generateName")
  have hns := Wire.field?_text (m.lookup_fields "namespace")
  have hlabels := Wire.field?_texts m.lookup_labels
  have hannotations := Wire.field?_texts m.lookup_annotations
  have hgeneration := Wire.field?_int64 (m.lookup_fields "generation")
  have hresourceVersion := Wire.field?_text (m.lookup_fields "resourceVersion")
  have hselfLink := Wire.field?_text (m.lookup_fields "selfLink")
  have huid := Wire.field?_text (m.lookup_fields "uid")
  rw [toJson_eq, ofJson?]
  simp only [Json.obj?, Wire.some_bind, hname, hgenerateName, hns, hlabels,
    hannotations, hgeneration, hresourceVersion, hselfLink, huid]

/-- A member that holds metadata is read. -/
theorem field?_toJson {fields : Json.Fields} {key : String} {value : Option ObjectMeta}
    (h : fields.lookup key = value.map toJson) : Wire.field? ofJson? fields key = some value :=
  Wire.field?_of_lookup _ _ h (fun m _ => m.ofJson?_toJson) fun _ h => nomatch h

/-- Metadata with the same members are the same. -/
theorem eq_of_fields_eq {m m' : ObjectMeta} (h : m.fields = m'.fields) : m = m' := by
  have hread := m.ofJson?_toJson
  rw [toJson_eq, h, ← toJson_eq, ofJson?_toJson] at hread
  exact (Option.some.inj hread).symm

end ObjectMeta

end Reconcile
