import Mathlib.Data.List.Basic
import Reconcile.Proofs.Schema.Refilling
import Reconcile.Proofs.Schema.Tolerance

/-!
# Blocks that are asked for again

A block that was filled from nothing has declared something, and the block that shows it has more
than the first one. When the first one is asked for again, its gaps are filled from the block that
shows. This makes no difference if no gap is filled from there that was not filled from nothing
(`fill_shown`). Blocks may be asked for with empty values, and with numbers as the bounds of a
rolling update (`Tolerates`).
-/

namespace Reconcile.Schema

variable {schema : Schema} {numbers : Json → Bool} {block shown : Block} {prior : Option Block}

/-! ## What is filled from nothing -/

/-- A gap without a default stays one where nothing was there. -/
theorem lookup_fill_eq_none (hnodup : (schema.map (·.name)).Nodup) {field : Field}
    (hfield : field ∈ schema) (hdefault : field.default = none)
    (h : block.lookup field.name = none) : (fill schema none block).lookup field.name = none := by
  rw [lookup_fill hnodup hfield, h]
  show fillValue field none none = none
  rw [fillValue_default (.inl rfl), hdefault]
  rfl

/-- The elements of a nested block are filled from nothing, each for itself. -/
theorem lookup_fill_none_blocks (hnodup : (schema.map (·.name)).Nodup) {field : Field}
    (hfield : field ∈ schema) {fields : Schema} {singular : Bool}
    (htype : field.type = .block fields singular) {blocks : List Block}
    (h : block.lookup field.name = some (.arr (blocks.map .obj))) :
    (fill schema none block).lookup field.name =
      some (.arr ((blocks.map (fill fields none)).map .obj)) := by
  have helements : blocks.mapIdx (fun i element => fill fields (elementAt? none i) element) =
      blocks.map (fill fields none) := List.mapIdx_eq_iff.2 fun i => List.getElem?_map
  rw [lookup_fill hnodup hfield, h, fillValue, htype, fillItems_block]
  exact congrArg (fun elements : List Block => some (Json.arr (elements.map .obj))) helements

/-- A nested block that is filled from nothing says something exactly if it has elements. -/
theorem Tolerates.isDeclared_fill (h : schema.Tolerates numbers block)
    (hnodup : (schema.map (·.name)).Nodup) {field : Field} (hfield : field ∈ schema)
    {fields : Schema} {singular : Bool} (htype : field.type = .block fields singular)
    (hdefault : field.default = none) :
    Change.isDeclared ((fill schema none block).lookup field.name) =
      !(Block.children (fill schema none block) field.name).isEmpty := by
  cases hvalue : block.lookup field.name with
  | none =>
      have hnone := lookup_fill_eq_none hnodup hfield hdefault hvalue
      rw [Block.children_of_none hnone, hnone]
      rfl
  | some value =>
      cases h.admits hfield htype hvalue with
      | block _ _ blocks _ =>
          have hfilled := lookup_fill_none_blocks hnodup hfield htype hvalue
          rw [Block.children_of_lookup hfilled, hfilled]
          cases blocks with
          | nil => rfl
          | cons first rest => rfl

/-! ## What is filled from a block that shows -/

/-- The elements of a nested block are filled from those of another one as from nothing. -/
def Settled (fields : Schema) (before value : Option Json) : Prop :=
  ∀ blocks : List Block, value = some (.arr (blocks.map .obj)) → ∀ i element prior,
    blocks[i]? = some element → elementAt? before i = some prior →
      fill fields (some prior) element = fill fields none element

/-- The names of the fields whose gaps are filled with what was there before. -/
def carried (schema : Schema) : List String :=
  (schema.filter (·.presence.carries)).map (·.name)

/-- The nested blocks of a schema. -/
def nested (schema : Schema) : List (String × Schema) :=
  schema.filterMap fun field =>
    match field.type with
    | .block fields _ => some (field.name, fields)
    | _ => none

/-- The elements of a settled nested block are filled as from nothing. -/
theorem Settled.mapIdx_eq {fields : Schema} {before : Option Json} {blocks : List Block}
    (h : Settled fields before (some (.arr (blocks.map .obj)))) :
    blocks.mapIdx (fun i element => fill fields (elementAt? before i) element) =
      blocks.mapIdx fun i element => fill fields (elementAt? none i) element := by
  refine List.ext_getElem? fun i => ?_
  rw [List.getElem?_mapIdx, List.getElem?_mapIdx]
  cases helement : blocks[i]? with
  | none => rfl
  | some element =>
      cases hprior : elementAt? before i with
      | none => rfl
      | some prior => exact congrArg some (h blocks rfl i element prior helement hprior)

/-- A field is filled as from nothing if its gap is not filled and its elements are settled. -/
theorem lookup_fill_settled (hnodup : (schema.map (·.name)).Nodup)
    (hblock : schema.Tolerates numbers block) {key : String}
    (hgap : key ∈ schema.carried → block.lookup key = none → prior.bind (·.lookup key) = none)
    (hnested : ∀ fields, (key, fields) ∈ schema.nested →
      Settled fields (prior.bind (·.lookup key)) (block.lookup key)) :
    (fill schema prior block).lookup key = (fill schema none block).lookup key := by
  by_cases hkey : key ∈ schema.map (·.name)
  swap
  · rw [lookup_fill_of_not_mem hkey, lookup_fill_of_not_mem hkey]
  obtain ⟨field, hfield, rfl⟩ := List.mem_map.1 hkey
  rw [lookup_fill hnodup hfield, lookup_fill hnodup hfield]
  show _ = fillValue field none (block.lookup field.name)
  cases hvalue : block.lookup field.name with
  | none =>
      rw [fillValue_default (.inl rfl)]
      refine fillValue_default ?_
      cases hcarries : field.presence.carries with
      | false => exact .inr rfl
      | true =>
          have hmem : field.name ∈ schema.carried :=
            List.mem_map_of_mem (List.mem_filter.2 ⟨hfield, hcarries⟩)
          exact .inl (hgap hmem hvalue)
  | some value =>
      cases htype : field.type with
      | block fields singular =>
          have hmem : (field.name, fields) ∈ schema.nested :=
            List.mem_filterMap.2 ⟨field, hfield, by rw [htype]⟩
          have hsettled := hnested fields hmem
          rw [hvalue] at hsettled
          cases hblock.admits hfield htype hvalue with
          | block _ _ blocks _ =>
              rw [fillValue, fillValue, htype, fillItems_block, fillItems_block,
                hsettled.mapIdx_eq]
      | _ =>
          cases value with
          | arr items => rw [fillValue, fillValue, htype, fillItems, fillItems]
          | _ => rfl

/-- A block is filled as from nothing if no gap is filled and the nested blocks are settled. -/
theorem fill_settled (hnodup : (schema.map (·.name)).Nodup)
    (hblock : schema.Tolerates numbers block)
    (hgaps : ∀ key ∈ schema.carried, block.lookup key = none → prior.bind (·.lookup key) = none)
    (hnested : ∀ e ∈ schema.nested, Settled e.2 (prior.bind (·.lookup e.1)) (block.lookup e.1)) :
    fill schema prior block = fill schema none block :=
  Entries.Ascending.ext (ascending_fill hblock.covers.ascending)
    (ascending_fill hblock.covers.ascending)
    fun key => lookup_fill_settled hnodup hblock (hgaps key) fun fields => hnested (key, fields)

/-- A field is filled as from nothing from the block that shows what is declared, if that block has
no value for what is still a gap, and its elements are settled. -/
theorem lookup_fill_shown (hnodup : (schema.map (·.name)).Nodup)
    (hdefaults : ∀ field ∈ schema, field.presence.carries = true → field.default = none)
    (hblock : schema.Tolerates numbers block) {key : String}
    (hgap : key ∈ schema.carried → (fill schema none block).lookup key = none →
      shown.lookup key = none)
    (hnested : ∀ fields, (key, fields) ∈ schema.nested →
      Settled fields (shown.lookup key) (block.lookup key)) :
    (fill schema (some shown) block).lookup key = (fill schema none block).lookup key := by
  refine lookup_fill_settled hnodup hblock (fun hkey hnone => ?_) hnested
  obtain ⟨field, hfield, rfl⟩ := List.mem_map.1 hkey
  obtain ⟨hmem, hcarries⟩ := List.mem_filter.1 hfield
  exact hgap hkey (lookup_fill_eq_none hnodup hmem (hdefaults field hmem hcarries) hnone)

/-- A block is filled as from nothing from the block that shows what it declares, if that block has
no value for any field that is still a gap, and the nested blocks are settled. -/
theorem fill_shown (hnodup : (schema.map (·.name)).Nodup)
    (hdefaults : ∀ field ∈ schema, field.presence.carries = true → field.default = none)
    (hblock : schema.Tolerates numbers block)
    (hgaps : ∀ key ∈ schema.carried, (fill schema none block).lookup key = none →
      shown.lookup key = none)
    (hnested : ∀ e ∈ schema.nested, Settled e.2 (shown.lookup e.1) (block.lookup e.1)) :
    fill schema (some shown) block = fill schema none block :=
  Entries.Ascending.ext (ascending_fill hblock.covers.ascending)
    (ascending_fill hblock.covers.ascending)
    fun key => lookup_fill_shown hnodup hdefaults hblock (hgaps key)
      fun fields => hnested (key, fields)

/-- A block whose fields carry nothing over is filled as from nothing. -/
theorem fill_of_carried_eq_nil (hschema : schema.WellNamed)
    (hcarried : schema.Throughout fun fields => fields.carried = [])
    (hblock : schema.Tolerates numbers block) (prior : Option Block) :
    fill schema prior block = fill schema none block := by
  induction hschema generalizing block prior with
  | @intro schema here _ ih =>
      cases hcarried with
      | intro hnil hbelow =>
          refine fill_settled here.1 hblock (fun key hkey => ?_) ?_
          · rw [hnil] at hkey
            cases hkey
          · rintro ⟨name, fields⟩ hmem blocks hvalue i element before helement _
            obtain ⟨field, hfield, hsome⟩ := List.mem_filterMap.1 hmem
            cases htype : field.type with
            | block inner singular =>
                rw [htype] at hsome
                cases hsome
                exact ih field hfield _ singular htype (hbelow field hfield _ singular htype)
                  (hblock.getElem hfield htype hvalue helement) (some before)
            | _ =>
                rw [htype] at hsome
                cases hsome

/-- A nested block whose fields carry nothing over is settled. -/
theorem settled_of_carried_eq_nil (hblock : schema.Tolerates numbers block) {name : String}
    {fields : Schema} {singular : Bool}
    (htype : schema.typeOf? name = some (.block fields singular)) (hschema : fields.WellNamed)
    (hcarried : fields.Throughout fun fields => fields.carried = []) (before : Option Json) :
    Settled fields before (block.lookup name) := by
  intro blocks hvalue i element prior helement _
  obtain ⟨field, hfield, rfl, hfieldType⟩ := exists_of_typeOf? htype
  exact fill_of_carried_eq_nil hschema hcarried
    (hblock.getElem hfield hfieldType hvalue helement) (some prior)

/-- A nested block that is shown with one element is settled if the first one is. -/
theorem settled_singular {fields : Schema} {name : String} {first : Block} {child : Option Block}
    (hshown : shown.lookup name = child.map Block.singular)
    (hfirst : Block.child? block name = some first)
    (hagain : ∀ prior, child = some prior →
      fill fields (some prior) first = fill fields none first) :
    Settled fields (shown.lookup name) (block.lookup name) := by
  intro blocks hvalue i element prior helement hprior
  rw [hshown] at hprior
  cases child with
  | none => cases hprior
  | some only =>
      cases i with
      | zero =>
          cases blocks with
          | nil => cases helement
          | cons head rest =>
              have hhead : Block.child? block name = some head :=
                Block.child?_eq_some_iff.2 ⟨rest.map .obj, hvalue⟩
              cases helement
              cases hprior
              cases hfirst.symm.trans hhead
              exact hagain _ rfl
      | succ i => cases hprior

/-- The elements of a nested block are settled if each is for what it declares. -/
theorem settled_children {α : Type} (hnodup : (schema.map (·.name)).Nodup)
    (hblock : schema.Tolerates numbers block) {name path : String} {fields : Schema}
    {singular : Bool} (htype : schema.typeOf? name = some (.block fields singular))
    {expand : String → Block → Except Failure α} {flatten : α → Block} {items : List α}
    (hitems : Declaration.children (fill schema none block) name path expand = .ok items)
    (hshown : shown.lookup name = Block.ofChildren? (items.map flatten))
    (hagain : ∀ element path item, fields.Tolerates numbers element →
      expand path (fill fields none element) = .ok item →
        fill fields (some (flatten item)) element = fill fields none element) :
    Settled fields (shown.lookup name) (block.lookup name) := by
  intro blocks hvalue i element prior helement hprior
  obtain ⟨field, hfield, rfl, hfieldType⟩ := exists_of_typeOf? htype
  have hfilled := lookup_fill_none_blocks hnodup hfield hfieldType hvalue
  rw [Declaration.children, Block.children_of_lookup hfilled] at hitems
  have hall := Steps.mapM_eq_ok_iff.1 hitems
  -- What is shown at an index is what the element with this index declares.
  obtain ⟨item, hitem, rfl⟩ : ∃ item, items[i]? = some item ∧ flatten item = prior := by
    rw [hshown, Block.ofChildren?] at hprior
    split at hprior
    · cases hprior
    · have hget : ((items.map flatten).map Json.obj)[i]?.bind Json.obj? = some prior := hprior
      rw [List.getElem?_map, List.getElem?_map] at hget
      cases hitem : items[i]? with
      | none =>
          rw [hitem] at hget
          cases hget
      | some item =>
          rw [hitem] at hget
          exact ⟨item, rfl, Option.some.inj hget⟩
  have htolerated := hblock.getElem hfield hfieldType hvalue helement
  obtain ⟨hi, rfl⟩ := List.getElem?_eq_some_iff.1 helement
  obtain ⟨hlength, rfl⟩ := List.getElem?_eq_some_iff.1 hitem
  have hexpand := (List.forall₂_iff_get.1 hall).2 i (by simpa using hi) hlength
  simp only [List.get_eq_getElem, List.getElem_zipIdx, List.getElem_map] at hexpand
  exact hagain _ _ _ htolerated hexpand

end Reconcile.Schema
