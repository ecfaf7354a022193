import Mathlib.Data.List.Nodup
import Reconcile.Proofs.Record.Keys
import Reconcile.Proofs.Schema.Conformance

/-!
# What is written where

Writing a value changes the attributes below its key only (`write_frame`), and keys that go on with
different segments never meet. What is written at a key depends on what was there at this key only
(`write_congr`). So below the key of a field there is what its value is written as
(`get?_write_field`), and below the key of an element what the element is written as
(`get?_writeBlocks_element`), as if nothing else were written. The values need not be of the types
of their fields.
-/

namespace Reconcile.Schema

/-! ## Writing one thing after another -/

section Folds

variable {σ α β : Type} {apply : σ → α → σ} {xs : List α} {s : σ}

/-- What no step changes is not changed by all of them. -/
theorem foldl_unchanged (view : σ → β)
    (h : ∀ x ∈ xs, ∀ s, view (apply s x) = view s) : view (xs.foldl apply s) = view s := by
  induction xs generalizing s with
  | nil => rfl
  | cons x xs ih =>
      rw [List.foldl_cons, ih fun y hy => h y (List.mem_cons_of_mem _ hy)]
      exact h x List.mem_cons_self s

/-- Steps that are apart from each other have all done their work in the end, if each of them finds
things ready and does its work there, and none spoils what another one needs or has done. -/
theorem foldl_establishes (Ready Done : α → σ → Prop) {apart : α → α → Prop}
    (hpair : xs.Pairwise apart) (hstart : ∀ x ∈ xs, Ready x s)
    (hstep : ∀ x ∈ xs, ∀ s, Ready x s → Done x (apply s x))
    (hready : ∀ x y, apart x y → ∀ s, Ready y s → Ready y (apply s x))
    (hdone : ∀ x y, apart x y → ∀ s, Done x s → Done x (apply s y)) :
    ∀ x ∈ xs, Done x (xs.foldl apply s) := by
  induction xs generalizing s with
  | nil => intro x hx; cases hx
  | cons y ys ih =>
      obtain ⟨hhead, htail⟩ := List.pairwise_cons.1 hpair
      intro x hx
      rw [List.foldl_cons]
      rcases List.mem_cons.1 hx with rfl | hx
      · have hkeep : ∀ (zs : List α) (s : σ), (∀ z ∈ zs, apart x z) → Done x s →
            Done x (zs.foldl apply s) := by
          intro zs
          induction zs with
          | nil => intro s _ hs; exact hs
          | cons z zs ihz =>
              intro s hz hs
              rw [List.foldl_cons]
              refine ihz _ (fun w hw => hz w (List.mem_cons_of_mem _ hw)) ?_
              exact hdone x z (hz z List.mem_cons_self) s hs
        exact hkeep ys _ hhead (hstep x List.mem_cons_self s (hstart x List.mem_cons_self))
      · refine ih htail (fun z hz => ?_) (fun z hz => hstep z (List.mem_cons_of_mem _ hz)) x hx
        exact hready y z (hhead z hz) s (hstart z (List.mem_cons_of_mem _ hz))

/-- States that look the same still do after steps that tell them apart by this look only. -/
theorem foldl_congr_view (view : σ → β)
    (h : ∀ x ∈ xs, ∀ s s', view s = view s' → view (apply s x) = view (apply s' x))
    {s s' : σ} (hs : view s = view s') : view (xs.foldl apply s) = view (xs.foldl apply s') := by
  induction xs generalizing s s' with
  | nil => exact hs
  | cons x xs ih =>
      exact ih (fun y hy => h y (List.mem_cons_of_mem _ hy)) (h x List.mem_cons_self s s' hs)

/-- If one step alone changes what is seen, it is as if only this step had been taken. -/
theorem foldl_single (view : σ → β) {x : α} (hx : x ∈ xs) (hnodup : xs.Nodup)
    (hother : ∀ y ∈ xs, y ≠ x → ∀ s, view (apply s y) = view s)
    (hcongr : ∀ s s', view s = view s' → view (apply s x) = view (apply s' x)) (s : σ) :
    view (xs.foldl apply s) = view (apply s x) := by
  obtain ⟨before, after, rfl⟩ := List.append_of_mem hx
  obtain ⟨-, hafter, happart⟩ := List.nodup_append.1 hnodup
  have hbefore : ∀ y ∈ before, ∀ s, view (apply s y) = view s := fun y hy =>
    hother y (List.mem_append_left _ hy) (happart y hy x List.mem_cons_self)
  have hrest : ∀ y ∈ after, ∀ s, view (apply s y) = view s := fun y hy =>
    hother y (List.mem_append_right _ (List.mem_cons_of_mem _ hy))
      (ne_of_mem_of_not_mem hy (List.nodup_cons.1 hafter).1)
  rw [List.foldl_append, List.foldl_cons, foldl_unchanged view hrest]
  exact hcongr _ _ (foldl_unchanged view hbefore)

end Folds

/-- The indices of a list tell its items apart. -/
theorem pairwise_zipIdx {α : Type} (items : List α) :
    items.zipIdx.Pairwise fun x y => x.2 ≠ y.2 := by
  have hnodup : (items.zipIdx.map (·.2)).Nodup := by
    rw [List.zipIdx_map_snd]
    exact List.nodup_range'
  exact List.pairwise_map.1 hnodup

/-! ## What writing leaves alone -/

section Writing

variable {key start k : String} {out : Attributes}

/-- Writing the fields of a block is writing them one after another. -/
theorem write_eq_foldl (schema : Schema) (start : String) (block : Block) (out : Attributes) :
    write schema start block out =
      schema.foldl (fun out field => writeField field start block out) out := by
  induction schema generalizing out with
  | nil => rfl
  | cons field fields ih => rw [write, ih, List.foldl_cons]

theorem get?_insert_of_not_under {member value : String} (hunder : Under key member)
    (h : ¬ Under key k) : (out.insert member value).get? k = out.get? k := by
  rw [Dict.get?_insert, if_neg]
  rintro rfl
  exact h hunder

theorem get?_writeScalar {member : String} (hunder : Under key member) (h : ¬ Under key k)
    (value : Option String) : (writeScalar member value out).get? k = out.get? k := by
  cases value with
  | none => rfl
  | some s => exact get?_insert_of_not_under hunder h

/-- A field that is there is written as its value. -/
theorem writeField_of_some {field : Field} {block : Block} {value : Json}
    (h : block.lookup field.name = some value) :
    writeField field start block out = writeValue field.type (start ++ field.name) value out := by
  obtain ⟨name, type, presence, default⟩ := field
  rw [writeField, h]

/-- A field that is not there is not written. -/
theorem writeField_of_none {field : Field} {block : Block} (h : block.lookup field.name = none) :
    writeField field start block out = out := by
  obtain ⟨name, type, presence, default⟩ := field
  rw [writeField, h]

theorem writeField_eq (field : Field) (start : String) (block : Block) (out : Attributes) :
    writeField field start block out = (block.lookup field.name).elim out fun value =>
      writeValue field.type (start ++ field.name) value out := by
  cases hvalue : block.lookup field.name with
  | none => exact writeField_of_none hvalue
  | some value => exact writeField_of_some hvalue

/-- The keys that the fields of a block do not reach are left alone by it, if their values leave
them alone. -/
theorem write_frame_of_fields {schema : Schema} {block : Block}
    (hvalue : ∀ field ∈ schema, ∀ value out,
      (writeValue field.type (start ++ field.name) value out).get? k = out.get? k) :
    (write schema start block out).get? k = out.get? k := by
  rw [write_eq_foldl]
  refine foldl_unchanged (fun out : Attributes => out.get? k) fun field hfield out => ?_
  cases hlookup : block.lookup field.name with
  | none => rw [writeField_of_none hlookup]
  | some value => rw [writeField_of_some hlookup, hvalue field hfield value out]

/-- Writing a nested block leaves a key alone if all its elements do and it is not the counter. -/
theorem writeValue_frame_of_elements {fields : Schema} {singular : Bool} (value : Json)
    (hlength : k ≠ lengthKey key)
    (h : ∀ i element out, (write fields (elementPrefix key i) element out).get? k = out.get? k) :
    (writeValue (.block fields singular) key value out).get? k = out.get? k := by
  rw [writeValue]
  show Dict.get? (List.foldl _ _ _) k = out.get? k
  rw [foldl_unchanged (fun out : Attributes => out.get? k) fun x _ out => h x.2 x.1 out,
    Dict.get?_insert, if_neg hlength]

/-- A value of a type is written to its own key and those below it, if the same is true of the
blocks in it. -/
theorem writeValue_frame_of_blocks {type : FieldType} (value : Json)
    (hblock : ∀ fields singular, type = .block fields singular → ∀ i element out,
      (write fields (elementPrefix key i) element out).get? k = out.get? k)
    (h : ¬ Under key k) : (writeValue type key value out).get? k = out.get? k := by
  cases type with
  | text => exact get?_writeScalar (.refl key) h _
  | int => exact get?_writeScalar (.refl key) h _
  | bool => exact get?_writeScalar (.refl key) h _
  | textList =>
      rw [writeValue, writeTextList]
      rw [foldl_unchanged (fun out : Attributes => out.get? k) fun _ _ _ =>
        get?_insert_of_not_under (.member key _) h]
      exact get?_insert_of_not_under (.lengthKey key) h
  | textMap =>
      rw [writeValue]
      cases value.obj? with
      | none => rfl
      | some fields =>
          show (writeTextMap key fields out).get? k = out.get? k
          rw [writeTextMap, foldl_unchanged (fun out : Attributes => out.get? k) fun _ _ _ =>
            get?_writeScalar (.member key _) h _]
          exact get?_insert_of_not_under (.sizeKey key) h
  | block fields singular =>
      refine writeValue_frame_of_elements value ?_ (hblock fields singular rfl)
      rintro rfl
      exact h (.lengthKey key)

/-- Writing a block leaves the keys alone that are below none of its fields. -/
theorem write_frame {schema : Schema} {block : Block}
    (h : ∀ field ∈ schema, ¬ Under (start ++ field.name) k) :
    (write schema start block out).get? k = out.get? k := by
  induction schema using Schema.induction generalizing start block out with
  | step schema ih =>
      refine write_frame_of_fields fun field hfield value out => ?_
      refine writeValue_frame_of_blocks value (fun fields singular htype i element out => ?_)
        (h field hfield)
      refine ih field hfield fields singular htype fun inner _ hunder => ?_
      exact h field hfield hunder.of_elementPrefix.of_member

/-- Writing a value leaves the keys alone that are not below its own. -/
theorem writeValue_frame (type : FieldType) (value : Json) (h : ¬ Under key k) :
    (writeValue type key value out).get? k = out.get? k := by
  refine writeValue_frame_of_blocks value (fun fields singular _ i element out => ?_) h
  exact write_frame fun inner _ hunder => h hunder.of_elementPrefix.of_member

/-- Writing a field leaves the keys alone that are not below its own. -/
theorem writeField_frame {field : Field} {block : Block} (h : ¬ Under (start ++ field.name) k) :
    (writeField field start block out).get? k = out.get? k := by
  cases hvalue : block.lookup field.name with
  | none => rw [writeField_of_none hvalue]
  | some value => rw [writeField_of_some hvalue, writeValue_frame field.type value h]

/-- Writing a block leaves a key within an element of a nested block alone, if that element does. -/
theorem write_frame_within {schema : Schema} {block : Block} {field : Field} {fields : Schema}
    {singular : Bool} {i : Nat} (hschema : schema.DistinctNames) (hfield : field ∈ schema)
    (htype : field.type = .block fields singular)
    (hk : Under (memberKey (start ++ field.name) (toString i)) k)
    (h : ∀ element out,
      (write fields (elementPrefix (start ++ field.name) i) element out).get? k = out.get? k) :
    (write schema start block out).get? k = out.get? k := by
  refine write_frame_of_fields fun other hother value out => ?_
  by_cases hname : other.name = field.name
  · obtain rfl := List.inj_on_of_nodup_map hschema.1 hother hfield hname
    rw [htype]
    refine writeValue_frame_of_elements value ?_ fun j element out => ?_
    · rintro rfl
      exact not_under_lengthKey _ i hk
    · by_cases hj : j = i
      · rw [hj, h]
      · exact write_frame fun inner _ hunder =>
          hk.disjoint_index (Ne.symm hj) hunder.of_elementPrefix
  · exact writeValue_frame other.type value
      (hk.of_member.disjoint (hschema.2 field hfield) (hschema.2 other hother) (Ne.symm hname))

/-! ## What writing leaves behind -/

theorem get?_insert_self (key value : String) (out : Attributes) :
    (out.insert key value).get? key = some value := by
  rw [Dict.get?_insert, if_pos rfl]

/-- The counter of a list of texts holds their number. -/
theorem get?_writeTextList_length {items : List String} (hbound : items.length ≤ Decimal.maxNat64)
    (key : String) (out : Attributes) :
    (writeTextList key items out).get? (lengthKey key) = some (toString items.length) := by
  rw [writeTextList, foldl_unchanged (fun out : Attributes => out.get? (lengthKey key))
    fun x _ out => get?_insert_of_not_under (.refl _) (not_under_lengthKey key x.2),
    get?_insert_self, Decimal.word_of_le hbound]

/-- Every text of a list is found under its index. -/
theorem get?_writeTextList_item {items : List String} {i : Nat} {s : String}
    (hs : items[i]? = some s) :
    (writeTextList key items out).get? (memberKey key (toString i)) = some s := by
  refine foldl_establishes (fun _ _ => True)
    (fun x (out : Attributes) => out.get? (memberKey key (toString x.2)) = some x.1)
    (pairwise_zipIdx items) (fun _ _ => trivial) ?_ (fun _ _ _ _ _ => trivial) ?_ (s, i)
    (List.mem_zipIdx_iff_getElem?.2 hs)
  · intro x _ out _
    exact get?_insert_self _ _ _
  · intro x y hne out hx
    rw [Dict.get?_insert, if_neg fun h => hne (Decimal.toString_inj (memberKey_inj h))]
    exact hx

end Writing

variable {schema fields : Schema} {singular : Bool} {block element : Block} {value : Json}
  {key start k : String} {out other : Attributes}

/-! ## One key at a time -/

theorem get?_insert_congr (h : out.get? k = other.get? k) (member s : String) :
    (out.insert member s).get? k = (other.insert member s).get? k := by
  rw [Dict.get?_insert, Dict.get?_insert, h]

theorem get?_writeScalar_congr (h : out.get? k = other.get? k) (member : String)
    (s : Option String) :
    (writeScalar member s out).get? k = (writeScalar member s other).get? k := by
  cases s with
  | none => exact h
  | some s => exact get?_insert_congr h member s

/-- The elements of a nested block are written one after another, after the counter. -/
theorem writeValue_elements (fields : Schema) (singular : Bool) (key : String) (value : Json)
    (out : Attributes) : writeValue (.block fields singular) key value out =
      value.elements.zipIdx.foldl (fun out x => write fields (elementPrefix key x.2) x.1 out)
        (out.insert (lengthKey key) (toString (Decimal.word value.elements.length))) := by
  rw [writeValue]
  rfl

/-- What is written at a key depends on what was there at this key only, if the same is true of the
blocks in the value. -/
theorem writeValue_congr_of_blocks {type : FieldType} (value : Json)
    (hblock : ∀ fields singular, type = .block fields singular →
      ∀ i element (out other : Attributes), out.get? k = other.get? k →
        (write fields (elementPrefix key i) element out).get? k =
          (write fields (elementPrefix key i) element other).get? k)
    (h : out.get? k = other.get? k) :
    (writeValue type key value out).get? k = (writeValue type key value other).get? k := by
  cases type with
  | text => exact get?_writeScalar_congr h _ _
  | int => exact get?_writeScalar_congr h _ _
  | bool => exact get?_writeScalar_congr h _ _
  | textList =>
      rw [writeValue, writeValue, writeTextList, writeTextList]
      exact foldl_congr_view (fun out : Attributes => out.get? k)
        (fun x _ _ _ h => get?_insert_congr h (memberKey key (toString x.2)) x.1)
        (get?_insert_congr h (lengthKey key) _)
  | textMap =>
      rw [writeValue, writeValue]
      cases value.obj? with
      | none => exact h
      | some entries =>
          show (writeTextMap key entries out).get? k = (writeTextMap key entries other).get? k
          rw [writeTextMap, writeTextMap]
          exact foldl_congr_view (fun out : Attributes => out.get? k)
            (fun x _ _ _ h => get?_writeScalar_congr h (memberKey key x.1) x.2.str?)
            (get?_insert_congr h (sizeKey key) _)
  | block fields singular =>
      rw [writeValue_elements, writeValue_elements]
      exact foldl_congr_view (fun out : Attributes => out.get? k)
        (fun x _ out other => hblock fields singular rfl x.2 x.1 out other)
        (get?_insert_congr h (lengthKey key) _)

/-- What is written at a key depends on what was there at this key only. -/
theorem write_congr (h : out.get? k = other.get? k) :
    (write schema start block out).get? k = (write schema start block other).get? k := by
  induction schema using Schema.induction generalizing start block out other with
  | step schema ih =>
      rw [write_eq_foldl, write_eq_foldl]
      refine foldl_congr_view (fun out : Attributes => out.get? k)
        (fun field hfield out other h => ?_) h
      cases hvalue : block.lookup field.name with
      | none => rwa [writeField_of_none hvalue, writeField_of_none hvalue]
      | some value =>
          rw [writeField_of_some hvalue, writeField_of_some hvalue]
          exact writeValue_congr_of_blocks value
            (fun fields singular htype _ _ _ _ => ih field hfield fields singular htype) h

theorem writeValue_congr (type : FieldType) (value : Json) (h : out.get? k = other.get? k) :
    (writeValue type key value out).get? k = (writeValue type key value other).get? k :=
  writeValue_congr_of_blocks value (fun _ _ _ _ _ _ _ => write_congr) h

/-! ## Fields -/

/-- Below the key of a field there is what the field alone is written as. -/
theorem get?_write_field {field : Field} (hschema : schema.DistinctNames)
    (hfield : field ∈ schema) (hk : Under (start ++ field.name) k) :
    (write schema start block out).get? k = (writeField field start block out).get? k := by
  rw [write_eq_foldl]
  refine foldl_single (fun out : Attributes => out.get? k) hfield (.of_map _ hschema.1)
    (fun other hother hne out => writeField_frame fun hunder => ?_) (fun out other h => ?_) out
  · have hname : field.name ≠ other.name := fun heq =>
      hne (List.inj_on_of_nodup_map hschema.1 hother hfield heq.symm)
    exact hk.disjoint (hschema.2 field hfield) (hschema.2 other hother) hname hunder
  · cases hvalue : block.lookup field.name with
    | none => rwa [writeField_of_none hvalue, writeField_of_none hvalue]
    | some value =>
        rw [writeField_of_some hvalue, writeField_of_some hvalue]
        exact writeValue_congr field.type value h

/-- Below the key of a field that is there, there is what its value is written as. -/
theorem get?_write_of_some {field : Field} (hschema : schema.DistinctNames)
    (hfield : field ∈ schema) (hvalue : block.lookup field.name = some value)
    (hk : Under (start ++ field.name) k) :
    (write schema start block out).get? k =
      (writeValue field.type (start ++ field.name) value out).get? k := by
  rw [get?_write_field hschema hfield hk, writeField_of_some hvalue]

/-- Below the key of a field that is not there, nothing is written. -/
theorem get?_write_of_none {field : Field} (hschema : schema.DistinctNames)
    (hfield : field ∈ schema) (hvalue : block.lookup field.name = none)
    (hk : Under (start ++ field.name) k) :
    (write schema start block out).get? k = out.get? k := by
  rw [get?_write_field hschema hfield hk, writeField_of_none hvalue]

/-! ## Elements and entries -/

/-- The counter of a nested block holds the number of its elements. -/
theorem get?_writeBlocks_length (hbound : value.elements.length ≤ Decimal.maxNat64)
    (fields : Schema) (singular : Bool) (key : String) (out : Attributes) :
    (writeValue (.block fields singular) key value out).get? (lengthKey key) =
      some (toString value.elements.length) := by
  have helements : ∀ x ∈ value.elements.zipIdx, ∀ out : Attributes,
      (write fields (elementPrefix key x.2) x.1 out).get? (lengthKey key) =
        out.get? (lengthKey key) := fun x _ out =>
    write_frame fun field _ hunder => not_under_lengthKey key x.2 hunder.of_elementPrefix
  rw [writeValue_elements,
    foldl_unchanged (fun out : Attributes => out.get? (lengthKey key)) helements,
    get?_insert_self, Decimal.word_of_le hbound]

/-- Below the key of an element of a nested block there is what the element is written as. -/
theorem get?_writeBlocks_element {i : Nat} (helement : value.elements[i]? = some element)
    (hk : Under (memberKey key (toString i)) k) :
    (writeValue (.block fields singular) key value out).get? k =
      (write fields (elementPrefix key i) element out).get? k := by
  have hmem : (element, i) ∈ value.elements.zipIdx := List.mem_zipIdx_iff_getElem?.2 helement
  rw [writeValue_elements]
  have hnodup : value.elements.zipIdx.Nodup :=
    (pairwise_zipIdx _).imp fun hne heq => hne (congrArg (·.2) heq)
  rw [foldl_single (fun out : Attributes => out.get? k) hmem hnodup (fun x hx hne out => ?_)
    (fun _ _ => write_congr)]
  · refine write_congr ?_
    rw [Dict.get?_insert, if_neg]
    rintro rfl
    exact not_under_lengthKey key i hk
  · have hindex : i ≠ x.2 := by
      rintro rfl
      refine hne (Prod.ext (Option.some.inj ?_) rfl)
      rw [← helement]
      exact (List.mem_zipIdx_iff_getElem?.1 hx).symm
    exact write_frame fun field _ hunder => hk.disjoint_index hindex hunder.of_elementPrefix

/-- Nothing is written for a nested block but its counter and its elements. -/
theorem get?_writeBlocks_frame (hlength : k ≠ lengthKey key)
    (h : ∀ i < value.elements.length, ¬ Under (memberKey key (toString i)) k) :
    (writeValue (.block fields singular) key value out).get? k = out.get? k := by
  rw [writeValue_elements, foldl_unchanged (fun out : Attributes => out.get? k)
    fun x hx out => write_frame fun field _ hunder => ?_, Dict.get?_insert, if_neg hlength]
  obtain ⟨hi, -⟩ := List.getElem?_eq_some_iff.1 (List.mem_zipIdx_iff_getElem?.1 hx)
  exact h x.2 hi hunder.of_elementPrefix

/-- Nothing is written for a list of texts but its counter and its items. -/
theorem get?_writeTextList_frame {items : List String} (hlength : k ≠ lengthKey key)
    (h : ∀ i < items.length, k ≠ memberKey key (toString i)) :
    (writeTextList key items out).get? k = out.get? k := by
  rw [writeTextList, foldl_unchanged (fun out : Attributes => out.get? k) fun x hx out => ?_,
    Dict.get?_insert, if_neg hlength]
  obtain ⟨hi, -⟩ := List.getElem?_eq_some_iff.1 (List.mem_zipIdx_iff_getElem?.1 hx)
  rw [Dict.get?_insert, if_neg (h x.2 hi)]

/-- Texts that are written as members of a value are found under their keys. -/
theorem get?_foldl_insert_member (entries : List (String × String)) (key member : String)
    (out : Attributes) :
    (entries.foldl (fun out x => out.insert (memberKey key x.1) x.2) out).get?
        (memberKey key member) =
      ((entries.reverse).lookup member).or (out.get? (memberKey key member)) := by
  induction entries generalizing out with
  | nil => rfl
  | cons entry rest ih =>
      obtain ⟨k, s⟩ := entry
      rw [List.foldl_cons, ih, Dict.get?_insert, List.reverse_cons, List.lookup_append,
        Option.or_assoc]
      by_cases hk : member = k
      · simp [hk]
      · rw [if_neg fun h => hk (memberKey_inj h), Entries.lookup_cons_of_ne hk, List.lookup_nil,
          Option.none_or]

/-- Below the key of a map there are its texts, and the number of all its entries unless a text
takes the place of the counter. -/
theorem get?_writeTextMap (key member : String) (entries : Json.Fields) (out : Attributes) :
    (writeTextMap key entries out).get? (memberKey key member) =
      ((Json.texts entries).get? member).or (if member = "%" then
        some (toString (Decimal.word entries.length)) else out.get? (memberKey key member)) := by
  have htexts : ∀ out : Attributes,
      entries.foldl (fun out x => writeScalar (memberKey key x.1) x.2.str? out) out =
        (entries.filterMap fun x => x.2.str?.map (x.1, ·)).foldl
          (fun out x => out.insert (memberKey key x.1) x.2) out := by
    intro out
    rw [List.foldl_filterMap]
    refine List.foldl_ext _ _ _ fun out x _ => ?_
    cases x.2.str? with
    | none => rfl
    | some s => rfl
  show (entries.foldl (fun out x => writeScalar (memberKey key x.1) x.2.str? out)
    (out.insert (sizeKey key) _)).get? _ = _
  rw [htexts, get?_foldl_insert_member, Json.texts, Dict.get?_ofList, Dict.get?_insert, sizeKey_eq]
  by_cases hmember : member = "%"
  · rw [if_pos hmember, if_pos (hmember ▸ rfl)]
  · rw [if_neg hmember, if_neg fun h => hmember (memberKey_inj h)]

/-- Nothing is written for a map but its counter and its entries. -/
theorem get?_writeTextMap_frame {entries : Json.Fields} (h : ∀ member, k ≠ memberKey key member) :
    (writeTextMap key entries out).get? k = out.get? k := by
  have hentry : ∀ x ∈ entries, ∀ out : Attributes,
      (writeScalar (memberKey key x.1) x.2.str? out).get? k = out.get? k := by
    intro x _ out
    cases x.2.str? with
    | none => rfl
    | some s => exact (Dict.get?_insert _ _ _ _).trans (if_neg (h x.1))
  rw [writeTextMap, foldl_unchanged (fun out : Attributes => out.get? k) hentry, Dict.get?_insert,
    if_neg fun heq => h "%" (heq.trans (sizeKey_eq key))]

end Reconcile.Schema
