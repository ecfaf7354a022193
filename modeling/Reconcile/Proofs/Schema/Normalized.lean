import Mathlib.Data.List.Basic
import Reconcile.Proofs.Schema.Checks
import Reconcile.Proofs.Schema.Refilling

/-!
# Nothing but the gaps is filled

`Filled` says what it is to fill the gaps of a block, without saying how it is done: every value
that is there stays, and the elements of a nested block are filled each from the one with its index.
A value that is not there is carried over from before, or it is the default. Normalizing a tree
does just this (`normalize_fills_gaps`), and doing it again changes nothing, if the prior tree has
no gaps of its own.
-/

namespace Reconcile

/-! ## Ordered values -/

namespace Json

variable {fields : Fields} {items : List Json} {value : Json}

theorem orderedItems_iff : OrderedItems items ↔ ∀ item ∈ items, item.Ordered := by
  induction items with
  | nil => simp [OrderedItems]
  | cons item items ih => simp [OrderedItems, ih]

theorem orderedFields_iff : OrderedFields fields ↔ ∀ e ∈ fields, e.2.Ordered := by
  induction fields with
  | nil => simp [OrderedFields]
  | cons entry fields ih => simp [OrderedFields, ih]

/-- The value of a field of an ordered object is ordered. -/
theorem Ordered.lookup (h : (obj fields).Ordered) {key : String}
    (hvalue : fields.lookup key = some value) : value.Ordered :=
  orderedFields_iff.1 h.2 _ (Entries.mem_of_lookup_eq_some hvalue)

end Json

namespace Schema

/-- The names of the fields are distinct. -/
def UniqueNames (schema : Schema) : Prop := (schema.map (·.name)).Nodup

instance : DecidablePred UniqueNames := fun schema =>
  inferInstanceAs (Decidable (schema.map (·.name)).Nodup)

/-! ## What it is to fill gaps -/

mutual

/-- The gaps of a desired block, and no other places, are filled from a prior block. -/
inductive Filled : Schema → Option Block → Block → Block → Prop where
  | intro {schema : Schema} {prior : Option Block} {desired filled : Block}
      (unknown : ∀ key, key ∉ schema.map (·.name) → filled.lookup key = desired.lookup key)
      (known : ∀ field ∈ schema, FilledField field (prior.bind (·.lookup field.name))
        (desired.lookup field.name) (filled.lookup field.name)) :
      Filled schema prior desired filled

/-- A field that was not desired has the value from before, or else its default. One that was
desired keeps its value, in which the elements of a nested block are filled. -/
inductive FilledField : Field → Option Json → Option Json → Option Json → Prop where
  | carried {field : Field} {before : Json} (hcarries : field.presence.carries = true) :
      FilledField field (some before) none (some before)
  | default {field : Field} {before : Option Json}
      (hcarries : field.presence.carries = true → before = none) :
      FilledField field before none (field.default.map Scalar.toJson)
  | kept {field : Field} {before : Option Json} {value : Json}
      (hvalue : ∀ fields singular, field.type = .block fields singular → value.arr? = none) :
      FilledField field before (some value) (some value)
  | items {field : Field} {before : Option Json} {fields : Schema} {singular : Bool}
      {items filled : List Json} (htype : field.type = .block fields singular)
      (hitems : ∀ i : Nat, FilledItem fields (elementAt? before i) items[i]? filled[i]?) :
      FilledField field before (some (.arr items)) (some (.arr filled))

/-- An element of a nested block is filled from the one with its index. What is no element stays,
and there are no more items than there were. -/
inductive FilledItem : Schema → Option Block → Option Json → Option Json → Prop where
  | beyond {fields : Schema} {prior : Option Block} : FilledItem fields prior none none
  | element {fields : Schema} {prior : Option Block} {desired filled : Block}
      (h : Filled fields prior desired filled) :
      FilledItem fields prior (some (.obj desired)) (some (.obj filled))
  | other {fields : Schema} {prior : Option Block} {item : Json} (hitem : item.obj? = none) :
      FilledItem fields prior (some item) (some item)

end

variable {schema fields : Schema} {block : Block} {prior : Option Block}

/-- A nested block that was not desired has been carried over as it was. -/
theorem FilledField.of_absent {field : Field} {before : Option Json} {items : List Json}
    (h : FilledField field before none (some (.arr items))) :
    field.presence.carries = true ∧ before = some (.arr items) := by
  generalize hfilled : some (Json.arr items) = filled at h
  cases h with
  | carried hcarries => exact ⟨hcarries, rfl⟩
  | default hcarries =>
      cases hdefault : field.default with
      | none =>
          rw [hdefault] at hfilled
          cases hfilled
      | some default =>
          rw [hdefault] at hfilled
          cases default with
          | int i => cases hfilled
          | bool b => cases hfilled
          | text s => cases hfilled

/-! ## Items one by one -/

/-- An item of a nested block with its gaps filled. -/
def fillItem (fields : Schema) (prior : Option Block) : Json → Json
  | .obj block => .obj (fill fields prior block)
  | item => item

/-- The items of a nested block are filled one by one. -/
theorem getElem?_fillItems (fields : Schema) (singular : Bool) (before : Option Json)
    (items : List Json) (i : Nat) : (fillItems (.block fields singular) before items)[i]? =
      items[i]?.map (fillItem fields (elementAt? before i)) := by
  rw [fillItems, List.getElem?_mapIdx]
  refine congrArg (Option.map · items[i]?) (funext fun item => ?_)
  cases item <;> rfl

/-- The items of a nested block stay exactly if each of them does. -/
theorem fillItems_eq_iff {singular : Bool} {before : Option Json} {items : List Json} :
    fillItems (.block fields singular) before items = items ↔
      ∀ i item, items[i]? = some item → fillItem fields (elementAt? before i) item = item := by
  constructor
  · intro h i item hitem
    have hget := getElem?_fillItems fields singular before items i
    rw [h, hitem] at hget
    exact (Option.some.inj hget).symm
  · intro h
    refine List.ext_getElem? fun i => ?_
    rw [getElem?_fillItems]
    cases hitem : items[i]? with
    | none => rfl
    | some item => exact congrArg some (h i item hitem)

/-- A field is filled if the elements of its value are. -/
theorem filledField_fillValue {field : Field} (before value : Option Json)
    (hblock : ∀ fields singular, field.type = .block fields singular → ∀ prior element,
      Filled fields prior element (fill fields prior element)) :
    FilledField field before value (fillValue field before value) := by
  cases value with
  | none =>
      by_cases hcarries : field.presence.carries = true
      · cases before with
        | none =>
            rw [fillValue_default (.inl rfl)]
            exact .default fun _ => rfl
        | some before =>
            have hfilled : fillValue field (some before) none = some before := by
              rw [fillValue, if_pos hcarries]
              rfl
            rw [hfilled]
            exact .carried hcarries
      · rw [fillValue_default (.inr (Bool.not_eq_true _ ▸ hcarries))]
        exact .default fun h => absurd h hcarries
  | some value =>
      cases value with
      | arr items =>
          cases htype : field.type with
          | block fields singular =>
              rw [fillValue, htype]
              refine .items htype fun i => ?_
              rw [getElem?_fillItems]
              cases items[i]? with
              | none => exact .beyond
              | some item =>
                  cases item with
                  | obj element => exact .element (hblock fields singular htype _ element)
                  | _ => exact .other rfl
          | _ =>
              rw [fillValue, htype]
              refine .kept fun fields singular hblock => ?_
              cases htype.symm.trans hblock
      | _ => exact .kept fun _ _ _ => rfl

/-- Filling a block fills its gaps. -/
theorem filled_fill (hschema : schema.Throughout UniqueNames) (prior : Option Block)
    (block : Block) : Filled schema prior block (fill schema prior block) := by
  induction hschema generalizing prior block with
  | @intro schema here _ ih =>
      refine .intro (fun key => lookup_fill_of_not_mem) fun field hfield => ?_
      rw [lookup_fill here hfield]
      exact filledField_fillValue _ _ (ih field hfield)

/-! ## Filling again -/

/-- An element of an ordered value is ordered. -/
theorem ordered_of_mem_elements {value : Json} (h : value.Ordered) {element : Block}
    (helement : element ∈ value.elements) : (Json.obj element).Ordered := by
  obtain ⟨item, hitem, hobj⟩ := List.mem_filterMap.1 helement
  cases value with
  | arr items =>
      cases item with
      | obj fields =>
          obtain rfl := Option.some.inj hobj
          exact Json.orderedItems_iff.1 h _ hitem
      | _ => cases hobj
  | _ => cases hitem

/-- The elements of a value that stays when it is filled from nothing stay as well. -/
theorem fill_element_of_fillValue {field : Field} {singular : Bool} {value : Json}
    (htype : field.type = .block fields singular)
    (h : fillValue field none (some value) = some value) {element : Block}
    (helement : element ∈ value.elements) : fill fields none element = element := by
  obtain ⟨item, hitem, hobj⟩ := List.mem_filterMap.1 helement
  cases value with
  | arr items =>
      rw [fillValue, htype] at h
      obtain ⟨i, hi⟩ := List.mem_iff_getElem?.1 hitem
      have hsame := fillItems_eq_iff.1 (Json.arr.inj (Option.some.inj h)) i item hi
      cases item with
      | obj block =>
          obtain rfl := Option.some.inj hobj
          exact Json.obj.inj hsame
      | _ => cases hobj
  | _ => cases hitem

/-- A value without gaps of its own has none that it would fill from itself, if the same is true of
the blocks in it. -/
theorem fillValue_self {field : Field} {value : Option Json}
    (hblock : ∀ v, value = some v → ∀ fields singular, field.type = .block fields singular →
      ∀ element ∈ v.elements, fill fields (some element) element = element)
    (h : fillValue field none value = value) : fillValue field value value = value := by
  cases value with
  | none => exact h
  | some value =>
      cases value with
      | arr items =>
          cases htype : field.type with
          | block fields singular =>
              rw [fillValue, htype]
              refine congrArg (some ∘ Json.arr) (fillItems_eq_iff.2 fun i item hitem => ?_)
              cases item with
              | obj element =>
                  have hat : elementAt? (some (.arr items)) i = some element :=
                    congrArg (Option.bind · Json.obj?) hitem
                  rw [hat]
                  exact congrArg Json.obj
                    (hblock _ rfl fields singular htype element (mem_elements_of_elementAt? hat))
              | _ => rfl
          | _ =>
              rw [fillValue, htype]
              rfl
      | _ => rfl

/-- A field of a block that has no gaps has none. -/
theorem fillValue_of_fill_none (hnodup : schema.UniqueNames) (h : fill schema none block = block)
    {field : Field} (hfield : field ∈ schema) :
    fillValue field none (block.lookup field.name) = block.lookup field.name :=
  (lookup_fill hnodup hfield).symm.trans (congrArg (List.lookup field.name) h)

/-- A block without gaps of its own has none that it would fill from itself. -/
theorem fill_self_of_fill_none (hschema : schema.Throughout UniqueNames)
    (hordered : (Json.obj block).Ordered) (h : fill schema none block = block) :
    fill schema (some block) block = block := by
  induction hschema generalizing block with
  | @intro schema here _ ih =>
      refine fill_eq_of_fields here hordered.1 hordered.1 (fun _ _ => rfl) fun field hfield => ?_
      have hstays := fillValue_of_fill_none here h hfield
      refine fillValue_self (fun v hv fields singular htype element helement => ?_) hstays
      refine ih field hfield fields singular htype
        (ordered_of_mem_elements (hordered.lookup hv) helement) ?_
      exact fill_element_of_fillValue htype (hv ▸ hstays) helement

/-- A value is filled once and for all, if what was there before has no gaps and the same is true of
the blocks in the value. -/
theorem fillValue_fillValue {field : Field} {before value : Option Json}
    (hbefore : ∀ v, before = some v → fillValue field before before = before)
    (hblock : ∀ v, value = some v → ∀ fields singular, field.type = .block fields singular →
      ∀ element ∈ v.elements, ∀ i,
        fill fields (elementAt? before i) (fill fields (elementAt? before i) element) =
          fill fields (elementAt? before i) element) :
    fillValue field before (fillValue field before value) = fillValue field before value := by
  cases value with
  | none =>
      cases hfilled : fillValue field before none with
      | none => exact hfilled
      | some value =>
          rcases fillValue_none hfilled with hcarried | ⟨default, -, rfl⟩
          · rw [← hcarried]
            exact hbefore value hcarried
          · cases default <;> rfl
  | some value =>
      cases value with
      | arr items =>
          cases htype : field.type with
          | block fields singular =>
              simp only [fillValue, htype]
              refine congrArg (some ∘ Json.arr) (fillItems_eq_iff.2 fun i item hitem => ?_)
              rw [getElem?_fillItems, Option.map_eq_some_iff] at hitem
              obtain ⟨original, horiginal, rfl⟩ := hitem
              cases original with
              | obj element =>
                  have hmem : element ∈ (Json.arr items).elements :=
                    List.mem_filterMap.2 ⟨_, List.mem_of_getElem? horiginal, rfl⟩
                  exact congrArg Json.obj (hblock _ rfl fields singular htype element hmem i)
              | _ => rfl
          | _ =>
              simp only [fillValue, htype]
              rfl
      | _ => rfl

/-- A prior block is ordered and has no gaps of its own. -/
def Gapless (schema : Schema) (block : Block) : Prop :=
  (Json.obj block).Ordered ∧ fill schema none block = block

/-- The elements of a block without gaps have none. -/
theorem Gapless.elementAt? (hprior : ∀ before, prior = some before → schema.Gapless before)
    (hnodup : schema.UniqueNames) {field : Field} (hfield : field ∈ schema) {singular : Bool}
    (htype : field.type = .block fields singular) {i : Nat} {element : Block}
    (h : elementAt? (prior.bind (·.lookup field.name)) i = some element) :
    Gapless fields element := by
  cases hbefore : prior.bind (·.lookup field.name) with
  | none =>
      rw [hbefore] at h
      cases h
  | some value =>
      rw [hbefore] at h
      obtain ⟨before, rfl, hvalue⟩ := Option.bind_eq_some_iff.1 hbefore
      obtain ⟨hordered, hstays⟩ := hprior before rfl
      have hmem := mem_elements_of_elementAt? h
      refine ⟨ordered_of_mem_elements (hordered.lookup hvalue) hmem, ?_⟩
      exact fill_element_of_fillValue htype
        (hvalue ▸ fillValue_of_fill_none hnodup hstays hfield) hmem

/-- A block is filled once and for all from one that has no gaps of its own. -/
theorem fill_again (hschema : schema.Throughout UniqueNames) (hordered : (Json.obj block).Ordered)
    (hprior : ∀ before, prior = some before → schema.Gapless before) :
    fill schema prior (fill schema prior block) = fill schema prior block := by
  induction hschema generalizing prior block with
  | @intro schema here below ih =>
      have hasc : Entries.Ascending (fill schema prior block) := ascending_fill hordered.1
      refine Entries.Ascending.ext (ascending_fill hasc) hasc fun k => ?_
      by_cases hk : k ∈ schema.map (·.name)
      swap
      · rw [lookup_fill_of_not_mem hk]
      obtain ⟨field, hfield, rfl⟩ := List.mem_map.1 hk
      rw [lookup_fill here hfield, lookup_fill here hfield]
      refine fillValue_fillValue (fun v hv => ?_) ?_
      · obtain ⟨before, rfl, -⟩ := Option.bind_eq_some_iff.1 hv
        obtain ⟨hbefore, hstays⟩ := hprior before rfl
        have hself := fill_self_of_fill_none (.intro here below) hbefore hstays
        exact (lookup_fill here hfield).symm.trans (congrArg (List.lookup field.name) hself)
      · intro v hv fields singular htype element helement i
        exact ih field hfield fields singular htype
          (ordered_of_mem_elements (hordered.lookup hv) helement)
          fun before => Gapless.elementAt? hprior here hfield htype

/-- Normalizing a tree fills its gaps and does nothing else. A nested block that was not desired has
been carried over, and doing it again changes nothing if the prior tree has no gaps. The keys of
objects are taken to ascend, as they do in every tree that is read. -/
theorem normalize_fills_gaps (hschema : schema.Throughout UniqueNames) (prior : Option Tree)
    (desired : Tree) :
    (desired.obj? = none → normalize schema prior desired = desired) ∧
    (∀ block, desired = .obj block → ∃ filled,
      normalize schema prior desired = .obj filled ∧
      Filled schema (prior.bind Json.obj?) block filled ∧
      ∀ field ∈ schema, ∀ items, block.lookup field.name = none →
        filled.lookup field.name = some (.arr items) →
          field.presence.carries = true ∧
            (prior.bind Json.obj?).bind (·.lookup field.name) = some (.arr items)) ∧
    (desired.Ordered →
      (∀ before, prior = some before → before.Ordered ∧ normalize schema none before = before) →
        normalize schema prior (normalize schema prior desired) =
          normalize schema prior desired) := by
  refine ⟨fun hnone => ?_, ?_, fun hordered hprior => ?_⟩
  · cases desired with
    | obj block => cases hnone
    | _ => rfl
  · rintro block rfl
    have hfilled := filled_fill hschema (prior.bind Json.obj?) block
    refine ⟨_, rfl, hfilled, fun field hfield items hnone hitems => ?_⟩
    cases hfilled with
    | intro _ known =>
        have hfield := known field hfield
        rw [hnone, hitems] at hfield
        exact hfield.of_absent
  · cases desired with
    | obj block =>
        refine congrArg Json.obj (fill_again hschema hordered fun before hbefore => ?_)
        obtain ⟨tree, rfl, hobj⟩ := Option.bind_eq_some_iff.1 hbefore
        obtain ⟨htree, hstays⟩ := hprior tree rfl
        cases tree with
        | obj fields =>
            obtain rfl := Option.some.inj hobj
            exact ⟨htree, Json.obj.inj hstays⟩
        | _ => cases hobj
    | _ => rfl

/-- The first of two parts is filled from the part before it and the second one from nothing. A
nested block that only the prior tree has is carried over, and an unknown field is left alone. -/
theorem normalize_fills_gaps_nested :
    let part : Schema := [.text "host" .computed, .text "name" .required,
      (Field.int "weight" .optional).withDefault (.int 1)]
    let schema : Schema := [.repeated "parts" part .required,
      (Field.int "size" .optionalComputed).withDefault (.int 3),
      .single "status" [.text "phase" .computed] .computed]
    let prior : Tree := .obj [("parts", .arr [.obj [("host", .str "a"), ("name", .str "x"),
      ("weight", .int 2)]]), ("size", .int 5), ("status", .arr [.obj [("phase", .str "done")]])]
    let desired : Tree := .obj [("extra", .null),
      ("parts", .arr [.obj [("name", .str "x")], .obj [("name", .str "y")]])]
    let filled : Tree := .obj [("extra", .null),
      ("parts", .arr [.obj [("host", .str "a"), ("name", .str "x"), ("weight", .int 1)],
        .obj [("name", .str "y"), ("weight", .int 1)]]),
      ("size", .int 5), ("status", .arr [.obj [("phase", .str "done")]])]
    normalize schema (some prior) desired = filled ∧ (∃ block, filled = .obj block ∧
      Filled schema prior.obj? (desired.obj?.getD []) block) ∧
      normalize schema (some prior) filled = filled := by
  intro part schema prior desired filled
  have hschema : schema.Throughout UniqueNames := by decide
  have hfilled : normalize schema (some prior) desired = filled := by decide
  have hdesired : desired.Ordered := by
    simp only [desired, Json.Ordered, Json.OrderedFields, Json.OrderedItems]
    decide
  have hprior : prior.Ordered := by
    simp only [prior, Json.Ordered, Json.OrderedFields, Json.OrderedItems]
    decide
  obtain ⟨-, hgaps, hagain⟩ := normalize_fills_gaps hschema (some prior) desired
  obtain ⟨block, hblock, hspec, -⟩ := hgaps _ rfl
  refine ⟨hfilled, ⟨block, hfilled ▸ hblock, hspec⟩, ?_⟩
  have hstays : normalize schema none prior = prior := by decide
  rw [← hfilled]
  refine hagain hdesired ?_
  rintro before ⟨⟩
  exact ⟨hprior, hstays⟩

end Schema

end Reconcile
