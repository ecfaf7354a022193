import Mathlib.Data.List.Basic
import Reconcile.Json.Pointer
import Reconcile.Proofs.Block.Nested
import Reconcile.Proofs.Except.Steps
import Reconcile.Proofs.Schema.Gaps
import Reconcile.Proofs.Schema.Tolerance
import Reconcile.Wire

/-!
# Values that reach a wire form

`Schema.carries` goes through a block and finds every value that a user has set again in a wire
form, each at the place that its name stands for. `Schema.typed` goes through the block alone and
asks every such value to be of the type of its field. Both look at the first element of a singular
block and at all elements of a repeated one. A block carries what it holds exactly if it is typed,
as soon as each of its fields does (`carries_eq_typed`).
-/

namespace Reconcile.Schema

open Json.Pointer (resolve?)

/-! ## Places on the wire -/

/-- The characters of a name whose words begin with capitals instead of following underscores. -/
def joined : List Char → List Char
  | '_' :: c :: cs => c.toUpper :: joined cs
  | c :: cs => c :: joined cs
  | [] => []

/-- The fields that have another name on the wire, and the one that lies a step deeper. -/
def renamed : List (String × List String) :=
  [("container", ["containers"]),
   ("host_ipc", ["hostIPC"]),
   ("host_pid", ["hostPID"]),
   ("init_container", ["initContainers"]),
   ("non_resource_urls", ["nonResourceURLs"]),
   ("policy_rule", ["rules"]),
   ("port", ["ports"]),
   ("selector", ["selector", "matchLabels"])]

/-- Where the value of a field is found on the wire. -/
def place (name : String) : List String :=
  (renamed.lookup name).getD [String.ofList (joined name.toList)]

/-! ## Single values -/

/-- Whether a value sets anything: null and what is empty do not. -/
def isSet (value : Json) : Bool := value ∉ [.null, .str "", .arr [], .obj []]

/-- Whether a text is a numeral of an integer. -/
def spells (s : String) (i : Int) : Bool := Decimal.intIn? i i s = some i

/-- Whether two values are the same, or one of them is the numeral of the other. -/
def sameSpelled : Json → Json → Bool
  | .int i, .str s => spells s i
  | .str s, .int i => spells s i
  | value, found => value = found

/-- Whether a value that is no nested block is the one that was found. -/
def sameLeaf (name : String) (value found : Json) : Bool :=
  if isBound name then sameSpelled value found else value = found

/-- Whether a value is of the type of its field. A bound may be an integer too. -/
def typedLeaf (name : String) (type : FieldType) (value : Json) : Bool :=
  type.admits value || (isBound name && isInteger value)

/-! ## Whole blocks -/

mutual

/-- Whether every value that a user has set in a block is found in a wire form. -/
def carries : Schema → Block → Json → Bool
  | [], _, _ => true
  | field :: fields, block, wire => carriesField field block wire && carries fields block wire

/-- Whether the value of one field, if a user has set it, is found in a wire form. -/
def carriesField : Field → Block → Json → Bool
  | ⟨name, type, presence, _⟩, block, wire =>
    match block.lookup name with
    | none => true
    | some value => presence = .computed || !isSet value ||
      (resolve? (place name) wire).any fun found => carriesValue type name value found

/-- Whether a value is the one that was found: the value itself, the first element of a singular
block or all elements of a repeated one. -/
def carriesValue : FieldType → String → Json → Json → Bool
  | .block fields true, _, value, found =>
    match value with
    | .arr (.obj child :: _) => carries fields child found
    | _ => false
  | .block fields false, _, value, found =>
    match value, found with
    | .arr items, .arr wires => items.length = wires.length &&
      (items.zip wires).all fun (item, wire) =>
        match item with
        | .obj child => carries fields child wire
        | _ => false
    | _, _ => false
  | .text, name, value, found => sameLeaf name value found
  | .int, name, value, found => sameLeaf name value found
  | .bool, name, value, found => sameLeaf name value found
  | .textList, name, value, found => sameLeaf name value found
  | .textMap, name, value, found => sameLeaf name value found

end

mutual

/-- Whether every value that a user has set in a block is of the type of its field. -/
def typed : Schema → Block → Bool
  | [], _ => true
  | field :: fields, block => typedField field block && typed fields block

/-- Whether the value of one field, if a user has set it, is of its type. -/
def typedField : Field → Block → Bool
  | ⟨name, type, presence, _⟩, block =>
    match block.lookup name with
    | none => true
    | some value => presence = .computed || !isSet value || typedValue type name value

/-- Whether a value is of a type: the value itself, the first element of a singular block or all
elements of a repeated one. -/
def typedValue : FieldType → String → Json → Bool
  | .block fields true, _, value =>
    match value with
    | .arr (.obj child :: _) => typed fields child
    | _ => false
  | .block fields false, _, value =>
    match value with
    | .arr items => items.all fun item =>
      match item with
      | .obj child => typed fields child
      | _ => false
    | _ => false
  | .text, name, value => typedLeaf name .text value
  | .int, name, value => typedLeaf name .int value
  | .bool, name, value => typedLeaf name .bool value
  | .textList, name, value => typedLeaf name .textList value
  | .textMap, name, value => typedLeaf name .textMap value

end

variable {schema fields : Schema} {block : Block} {field : Field} {wire : Json}
  {found : Option Json}

/-- A block carries what it holds exactly if it is typed, if each of its fields does. -/
theorem carries_eq_typed
    (h : ∀ field ∈ schema, carriesField field block wire = typedField field block) :
    schema.carries block wire = schema.typed block := by
  induction schema with
  | nil => rfl
  | cons field fields ih =>
      obtain ⟨hfield, hfields⟩ := List.forall_mem_cons.1 h
      rw [carries, typed, hfield, ih hfields]

/-- Only a value that sets something has to be looked at. -/
theorem carriesField_of_isSet (hfound : resolve? (place field.name) wire = found)
    (h : ∀ value, block.lookup field.name = some value → isSet value = true →
      found.any (carriesValue field.type field.name value) =
        typedValue field.type field.name value) :
    carriesField field block wire = typedField field block := by
  obtain ⟨name, type, presence, default⟩ := field
  rw [carriesField, typedField]
  cases hvalue : block.lookup name with
  | none => rfl
  | some value =>
      cases hset : isSet value with
      | false =>
          show (_ || !isSet value || _) = (_ || !isSet value || _)
          rw [hset, Bool.not_false, Bool.or_true, Bool.true_or, Bool.true_or]
      | true =>
          have hsame := h value hvalue hset
          rw [← hfound] at hsame
          exact congrArg (_ || ·) hsame

/-- A field that only the observed state sets is not looked at. -/
theorem carriesField_computed (h : field.presence = .computed) (block : Block) (wire : Json) :
    carriesField field block wire = typedField field block := by
  obtain ⟨name, type, presence, default⟩ := field
  obtain rfl : presence = .computed := h
  rw [carriesField, typedField]
  cases block.lookup name with
  | none => rfl
  | some value => rfl

/-- What an object holds under a key is found at the place of this key alone. -/
theorem resolve?_place {name key : String} {members : Json.Fields} (hplace : place name = [key])
    (h : members.lookup key = found) : resolve? (place name) (.obj members) = found := by
  rw [hplace, ← h]
  exact Option.bind_fun_some _

/-! ## Fields that are no nested blocks -/

/-- What is found for a field: a value of its type that sets something is found as it is, and
nothing else is found than values of its type. -/
structure Written (type : FieldType) (value found : Option Json) : Prop where
  kept : ∀ v, value = some v → isSet v = true → type.Admits v → found = some v
  admits : ∀ w, found = some w → type.Admits w

/-- A field that is written as what was read carries its value exactly if it is typed. -/
theorem carriesField_leaf (hleaf : field.type.isNested = false)
    (hbound : isBound field.name = false)
    (hfound : resolve? (place field.name) wire = found)
    (hwritten : Written field.type (block.lookup field.name) found) :
    carriesField field block wire = typedField field block := by
  refine carriesField_of_isSet hfound fun value hvalue hset => ?_
  obtain ⟨name, type, presence, default⟩ := field
  have hcarries : ∀ w, carriesValue type name value w = decide (value = w) := by
    intro w
    have hsame : sameLeaf name value w = decide (value = w) := if_neg (Bool.eq_false_iff.1 hbound)
    cases type with
    | block fields singular => cases hleaf
    | _ => exact hsame
  have htyped : typedValue type name value = type.admits value := by
    have hadmits : typedLeaf name type value = type.admits value := by
      rw [typedLeaf, show isBound name = false from hbound, Bool.false_and, Bool.or_false]
    cases type with
    | block fields singular => cases hleaf
    | _ => exact hadmits
  show found.any (carriesValue type name value) = typedValue type name value
  rw [htyped, Bool.eq_iff_iff, FieldType.admits_iff]
  cases hcase : found with
  | none =>
      refine iff_of_false nofun fun hadmits => ?_
      exact nomatch hcase.symm.trans (hwritten.kept value hvalue hset hadmits)
  | some w =>
      rw [Option.any_some, hcarries, decide_eq_true_eq]
      constructor
      · rintro rfl
        exact hwritten.admits value hcase
      · intro hadmits
        exact Option.some.inj ((hwritten.kept value hvalue hset hadmits).symm.trans hcase)

/-- A field whose place is a member of an object carries its value exactly if it is typed, if this
member is written as what was read. -/
theorem carriesField_member {members : Json.Fields} {key : String}
    (hleaf : field.type.isNested = false) (hbound : isBound field.name = false)
    (hplace : place field.name = [key]) (hmember : members.lookup key = found)
    (hwritten : Written field.type (block.lookup field.name) found) :
    carriesField field block (.obj members) = typedField field block :=
  carriesField_leaf hleaf hbound (resolve?_place hplace hmember) hwritten

/-! ## Nested blocks -/

/-- A singular block carries what its first element does. -/
theorem carriesField_singular (htype : field.type = .block fields true)
    (hfound : resolve? (place field.name) wire = found)
    (hchild : ∀ child, Block.child? block field.name = some child →
      ∃ w, found = some w ∧ fields.carries child w = fields.typed child) :
    carriesField field block wire = typedField field block := by
  refine carriesField_of_isSet hfound fun value hvalue _ => ?_
  rw [htype]
  by_cases hfirst : ∃ child rest, value = .arr (.obj child :: rest)
  · obtain ⟨child, rest, rfl⟩ := hfirst
    obtain ⟨w, rfl, hsame⟩ := hchild child (Block.child?_eq_some_iff.2 ⟨rest, hvalue⟩)
    exact hsame
  · -- Neither side accepts a value without a first block.
    have htyped : typedValue (.block fields true) field.name value = false := by
      unfold typedValue
      split
      · exact absurd ⟨_, _, rfl⟩ hfirst
      · rfl
    have hcarries : ∀ w, carriesValue (.block fields true) field.name value w = false := by
      intro w
      unfold carriesValue
      split
      · exact absurd ⟨_, _, rfl⟩ hfirst
      · rfl
    rw [htyped]
    cases found with
    | none => rfl
    | some w => exact hcarries w

/-- The elements of a repeated block carry what they hold, each in its place. -/
theorem carriesValue_blocks {α : Type} {expand : Block → α → Prop} {toJson : α → Json}
    {children : List Block} {items : List α} (name : String)
    (hitems : List.Forall₂ expand children items)
    (hitem : ∀ child item, expand child item →
      fields.carries child (toJson item) = fields.typed child) :
    carriesValue (.block fields false) name (.arr (children.map .obj)) (Wire.array toJson items) =
      typedValue (.block fields false) name (.arr (children.map .obj)) := by
  have hlength := hitems.length_eq
  rw [Wire.array, carriesValue, typedValue, List.length_map, List.length_map, hlength,
    decide_eq_true rfl, Bool.true_and]
  clear hlength
  induction hitems with
  | nil => rfl
  | cons hexpand _ ih =>
      rw [List.map_cons, List.map_cons, List.zip_cons_cons, List.all_cons, List.all_cons, ih]
      exact congrArg (· && _) (hitem _ _ hexpand)

theorem exists_blocks_of_typedValue {name : String} {value : Json}
    (h : typedValue (.block fields false) name value = true) :
    ∃ children : List Block, value = .arr (children.map .obj) := by
  unfold typedValue at h
  split at h
  · rename_i items
    have hobjects : ∀ item ∈ items, ∃ child, item = Json.obj child := by
      intro item hitem
      have hobject := List.all_eq_true.1 h item hitem
      cases item with
      | obj child => exact ⟨child, rfl⟩
      | _ => cases hobject
    obtain ⟨children, rfl⟩ := exists_map_eq hobjects
    exact ⟨children, rfl⟩
  · cases h

theorem exists_blocks_of_carriesValue {name : String} {value w : Json}
    (h : carriesValue (.block fields false) name value w = true) :
    ∃ children : List Block, value = .arr (children.map .obj) := by
  unfold carriesValue at h
  split at h
  · rename_i items wires
    obtain ⟨hlength, hall⟩ := Bool.and_eq_true_iff.1 h
    have hobjects : ∀ item ∈ items, ∃ child, item = Json.obj child := by
      intro item hitem
      rw [← List.map_fst_zip (Nat.le_of_eq (of_decide_eq_true hlength))] at hitem
      obtain ⟨⟨_, wire⟩, hpair, rfl⟩ := List.mem_map.1 hitem
      have hobject := List.all_eq_true.1 hall _ hpair
      dsimp only at hobject ⊢
      split at hobject
      · exact ⟨_, rfl⟩
      · cases hobject
    obtain ⟨children, rfl⟩ := exists_map_eq hobjects
    exact ⟨children, rfl⟩
  · cases h

/-- A repeated block carries what the things carry that are made of its elements. -/
theorem carriesField_repeated {α : Type} {expand : String → Block → Except Failure α}
    {toJson : α → Json} {items : List α} {path : String} (htype : field.type = .block fields false)
    (hfound : resolve? (place field.name) wire = found)
    (hread : Declaration.children block field.name path expand = .ok items)
    (hwritten : items ≠ [] → found = some (Wire.array toJson items))
    (hitem : ∀ path child item, expand path child = .ok item →
      fields.carries child (toJson item) = fields.typed child) :
    carriesField field block wire = typedField field block := by
  refine carriesField_of_isSet hfound fun value hvalue hset => ?_
  rw [htype]
  by_cases hblocks : ∃ children : List Block, value = .arr (children.map .obj)
  · obtain ⟨children, rfl⟩ := hblocks
    have hall : List.Forall₂ (fun child item => ∃ path, expand path child = .ok item)
        children items := by
      have hmade := Steps.mapM_eq_ok_iff.1 hread
      rw [Block.children_of_lookup hvalue] at hmade
      have hpairs := hmade.imp fun pair item h =>
        (⟨_, h⟩ : ∃ path, expand path pair.1 = .ok item)
      rw [← List.zipIdx_map_fst 0 children, List.forall₂_map_left_iff]
      exact hpairs
    have hne : items ≠ [] := by
      rintro rfl
      rw [List.forall₂_nil_right_iff.1 hall] at hset
      cases hset
    rw [hwritten hne, Option.any_some]
    refine carriesValue_blocks _ hall fun child item h => ?_
    obtain ⟨path, hexpand⟩ := h
    exact hitem path child item hexpand
  · -- Neither side accepts a value with an item that is no block.
    have htyped : typedValue (.block fields false) field.name value = false :=
      Bool.eq_false_iff.2 fun h => hblocks (exists_blocks_of_typedValue h)
    have hcarries : ∀ w, carriesValue (.block fields false) field.name value w = false :=
      fun w => Bool.eq_false_iff.2 fun h => hblocks (exists_blocks_of_carriesValue h)
    rw [htyped]
    cases found with
    | none => rfl
    | some w => exact hcarries w

end Reconcile.Schema
