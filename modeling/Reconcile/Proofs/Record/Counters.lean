import Reconcile.Proofs.Record.RoundTrip

/-!
# Counters

`counters` lists the counters of a block with the numbers that they stand for. They add nothing
where no value is empty: the number of elements is one more than the greatest index that a reader
finds, and a map is there if an entry of it is. So a tree without empty values is read back after
any of its counters have been lost (`ofAttributes_without_counters`).
-/

namespace Reconcile.Schema

mutual

/-- The keys of the counters of a block, each with the number of what is counted. -/
def counters : Schema → String → Block → List (String × Nat)
  | [], _, _ => []
  | field :: fields, start, block => countersField field start block ++ counters fields start block

/-- The counters of one field of a block. -/
def countersField : Field → String → Block → List (String × Nat)
  | ⟨name, type, _, _⟩, start, block =>
    match block.lookup name with
    | some value => countersValue type (start ++ name) value
    | none => []

/-- The counters of a value. A map counts its texts, but none that has the key of the counter. -/
def countersValue : FieldType → String → Json → List (String × Nat)
  | .text, _, _ => []
  | .int, _, _ => []
  | .bool, _, _ => []
  | .textList, key, value => [(lengthKey key, ((value.arr?.getD []).filterMap Json.str?).length)]
  | .textMap, key, value =>
    match value.obj? with
    | some entries => [(sizeKey key, (keptTexts entries).entries.length)]
    | none => []
  | .block fields _, key, value =>
    (lengthKey key, value.elements.length) ::
      value.elements.zipIdx.flatMap fun (element, i) =>
        counters fields (elementPrefix key i) element

end

/-- An array or a map holds something, and so does every element of a nested block. -/
def Populated (_field : Field) (value : Json) : Prop :=
  value ≠ .arr [] ∧ value ≠ .obj [] ∧ ∀ element ∈ value.elements, element ≠ []

instance (field : Field) (value : Json) : Decidable (Populated field value) := by
  unfold Populated
  infer_instance

variable {schema fields : Schema} {singular : Bool} {block element : Block} {value : Json}
  {key start k : String} {counter : String × Nat} {attributes out : Attributes}

/-! ## Where counters are -/

/-- The counters of a block are those of its fields. -/
theorem counters_eq_flatMap (schema : Schema) (start : String) (block : Block) :
    counters schema start block = schema.flatMap fun field =>
      (block.lookup field.name).elim [] (countersValue field.type (start ++ field.name)) := by
  induction schema with
  | nil => rfl
  | cons field fields ih =>
      obtain ⟨name, type, presence, default⟩ := field
      rw [counters, ih, List.flatMap_cons, countersField]
      cases block.lookup name with
      | none => rfl
      | some value => rfl

theorem mem_counters_iff : counter ∈ counters schema start block ↔ ∃ field ∈ schema, ∃ value,
    block.lookup field.name = some value ∧
      counter ∈ countersValue field.type (start ++ field.name) value := by
  rw [counters_eq_flatMap, List.mem_flatMap]
  refine exists_congr fun field => and_congr_right fun _ => ?_
  cases block.lookup field.name with
  | none => simp
  | some value => simp

/-- The counters of a nested block are its own and those of its elements. -/
theorem mem_countersBlock_iff : counter ∈ countersValue (.block fields singular) key value ↔
    counter = (lengthKey key, value.elements.length) ∨ ∃ i element,
      value.elements[i]? = some element ∧
        counter ∈ counters fields (elementPrefix key i) element := by
  rw [countersValue, List.mem_cons, List.mem_flatMap]
  simp only [Prod.exists, List.mem_zipIdx_iff_getElem?]
  exact or_congr_right exists_comm

/-- The counters of a value lie below its key. -/
theorem under_of_mem_countersValue {type : FieldType}
    (hblock : ∀ fields singular, type = .block fields singular → ∀ i element,
      ∀ counter ∈ counters fields (elementPrefix key i) element,
        Under (memberKey key (toString i)) counter.1)
    (h : counter ∈ countersValue type key value) : Under key counter.1 := by
  cases type with
  | text => cases h
  | int => cases h
  | bool => cases h
  | textList =>
      obtain rfl := List.mem_singleton.1 h
      exact .lengthKey key
  | textMap =>
      rw [countersValue] at h
      cases hobj : value.obj? with
      | none =>
          rw [hobj] at h
          cases h
      | some entries =>
          rw [hobj] at h
          obtain rfl := List.mem_singleton.1 h
          exact .sizeKey key
  | block fields singular =>
      rcases mem_countersBlock_iff.1 h with rfl | ⟨i, element, -, hmem⟩
      · exact .lengthKey key
      · exact (hblock fields singular rfl i element counter hmem).of_member

/-- The counters of an element lie below its key. -/
theorem under_of_mem_counters {i : Nat}
    (h : counter ∈ counters fields (elementPrefix key i) element) :
    Under (memberKey key (toString i)) counter.1 := by
  induction fields using Schema.induction generalizing key i element counter with
  | step fields ih =>
      obtain ⟨field, hfield, value, -, hmem⟩ := mem_counters_iff.1 h
      refine Under.of_elementPrefix (under_of_mem_countersValue ?_ hmem)
      exact fun fields singular htype i element counter => ih field hfield fields singular htype

theorem under_of_mem_countersType {type : FieldType} (h : counter ∈ countersValue type key value) :
    Under key counter.1 :=
  under_of_mem_countersValue (fun _ _ _ _ _ _ => under_of_mem_counters) h

/-- Below the key of a field there are no counters but its own. -/
theorem mem_countersValue_of_under (hschema : schema.DistinctNames) {field : Field}
    (hfield : field ∈ schema) (hvalue : block.lookup field.name = some value)
    (h : counter ∈ counters schema start block) (hunder : Under (start ++ field.name) counter.1) :
    counter ∈ countersValue field.type (start ++ field.name) value := by
  obtain ⟨other, hother, found, hfound, hmem⟩ := mem_counters_iff.1 h
  by_cases hname : field.name = other.name
  · obtain rfl := List.inj_on_of_nodup_map hschema.1 hfield hother hname
    obtain rfl := Option.some.inj (hvalue.symm.trans hfound)
    exact hmem
  · exact absurd (under_of_mem_countersType hmem)
      (hunder.disjoint (hschema.2 field hfield) (hschema.2 other hother) hname)

/-- Below the key of an element there are no counters but its own. -/
theorem mem_counters_of_under {i : Nat} (helement : value.elements[i]? = some element)
    (h : counter ∈ countersValue (.block fields singular) key value)
    (hunder : Under (memberKey key (toString i)) counter.1) :
    counter ∈ counters fields (elementPrefix key i) element := by
  rcases mem_countersBlock_iff.1 h with rfl | ⟨j, other, hother, hmem⟩
  · exact absurd hunder (not_under_lengthKey key i)
  · by_cases hindex : i = j
    · subst hindex
      obtain rfl := Option.some.inj (helement.symm.trans hother)
      exact hmem
    · exact absurd (under_of_mem_counters hmem) (hunder.disjoint_index hindex)

/-! ## Lengths without counters -/

/-- The index of an element is the segment that the keys below it go on with. -/
theorem index?_of_under {i : Nat} {rest : String} (hbound : i ≤ Decimal.maxNat64)
    (h : Under (memberKey key (toString i)) (memberKey key rest)) :
    (Text.split '.' rest).head?.bind Tree.index? = some i := by
  have hindex : Tree.index? (toString i) = some i := Decimal.natUpTo?_toString hbound
  have hsegment : Text.pieces '.' (toString i).toList = [(toString i).toList] :=
    Text.pieces_eq_singleton (dot_not_mem_index i)
  rcases h with h | ⟨below, h⟩
  · obtain rfl := memberKey_inj h
    simp only [Text.split, hsegment, List.map_cons, List.head?_cons, String.ofList_toList,
      Option.bind_some, hindex]
  · have hbelow : memberKey key rest = memberKey key (toString i ++ "." ++ below) := by
      rw [h]
      simp only [memberKey, String.append_assoc]
    have hrest : rest = toString i ++ "." ++ below := memberKey_inj hbelow
    have hchars : rest.toList = (toString i).toList ++ '.' :: below.toList := by
      rw [hrest, String.append_assoc, String.toList_append, String.toList_append]
      rfl
    simp only [Text.split, hchars, Text.pieces_append, hsegment, List.map_append, List.map_cons,
      List.cons_append, List.head?_cons, String.ofList_toList, Option.bind_some, hindex]

/-- A length is inferred if there is something below the last index and nothing beyond it. -/
theorem inferredLength?_eq {n : Nat} (hbound : n + 1 ≤ Decimal.maxNat64)
    (hall : ∀ rest, (attributes.get? (memberKey key rest)).isSome →
      ∃ i ≤ n, Under (memberKey key (toString i)) (memberKey key rest))
    (hlast : ∃ k, Under (memberKey key (toString n)) k ∧ (attributes.get? k).isSome) :
    inferredLength? attributes key = some (n + 1) := by
  have hmem : ∀ i, i ∈ (attributes.keys.filterMap fun k =>
      (Text.dropPrefix? (memberKey key "") k).bind fun rest =>
        (Text.split '.' rest).head?.bind Tree.index?) ↔
      ∃ rest, (attributes.get? (memberKey key rest)).isSome ∧
        (Text.split '.' rest).head?.bind Tree.index? = some i := by
    intro i
    simp only [List.mem_filterMap, Option.bind_eq_some_iff (x := Text.dropPrefix? _ _),
      Text.dropPrefix?_eq_some_iff, Dict.mem_keys_iff, memberKey, String.append_empty]
    constructor
    · rintro ⟨_, hbound, rest, rfl, hindex⟩
      exact ⟨rest, hbound, hindex⟩
    · rintro ⟨rest, hbound, hindex⟩
      exact ⟨_, hbound, rest, rfl, hindex⟩
  have hmax : (attributes.keys.filterMap fun k =>
      (Text.dropPrefix? (memberKey key "") k).bind fun rest =>
        (Text.split '.' rest).head?.bind Tree.index?).max? = some n := by
    refine List.max?_eq_some_iff.2 ⟨(hmem n).2 ?_, fun i hi => ?_⟩
    · obtain ⟨k, hunder, hk⟩ := hlast
      obtain ⟨rest, rfl⟩ : ∃ rest, k = memberKey key rest := by
        rcases hunder with rfl | ⟨below, rfl⟩
        · exact ⟨toString n, rfl⟩
        · exact ⟨toString n ++ "." ++ below, by simp only [memberKey, String.append_assoc]⟩
      exact ⟨rest, hk, index?_of_under (Nat.le_of_succ_le hbound) hunder⟩
    · obtain ⟨rest, hk, hindex⟩ := (hmem i).1 hi
      obtain ⟨j, hj, hunder⟩ := hall rest hk
      rw [index?_of_under (Nat.le_trans hj (Nat.le_of_succ_le hbound)) hunder] at hindex
      obtain rfl := Option.some.inj hindex
      exact hj
  rw [inferredLength?, hmax, Option.map_some, Decimal.word_of_le hbound]

/-! ## Reading without counters -/

/-- The attributes below a key are those of others, but counters may be missing. -/
def Thinned (thinned full : Attributes) (counted : List (String × Nat)) (key : String) : Prop :=
  ∀ k, Under key k →
    thinned.get? k = full.get? k ∨ thinned.get? k = none ∧ k ∈ counted.map (·.1)

variable {thinned : Attributes}

/-- What is no counter is not missing. -/
theorem Thinned.get?_eq {full : Attributes} {counted : List (String × Nat)}
    (h : Thinned thinned full counted key) (hk : Under key k)
    (hcounter : ∀ counter ∈ counted, k ≠ counter.1) : thinned.get? k = full.get? k := by
  rcases h k hk with heq | ⟨-, hmem⟩
  · exact heq
  · obtain ⟨counter, hcounted, rfl⟩ := List.mem_map.1 hmem
    exact absurd rfl (hcounter counter hcounted)

/-- What is there has not been added. -/
theorem Thinned.isSome {full : Attributes} {counted : List (String × Nat)}
    (h : Thinned thinned full counted key) (hk : Under key k)
    (hsome : (thinned.get? k).isSome) : (full.get? k).isSome := by
  rcases h k hk with heq | ⟨hnone, -⟩
  · rwa [← heq]
  · rw [hnone] at hsome
    cases hsome

/-- The value of a field has lost counters of its own only. -/
theorem Thinned.field {field : Field}
    (h : Thinned thinned (write schema start block out) (counters schema start block)
      (start ++ field.name))
    (hschema : schema.DistinctNames) (hfield : field ∈ schema)
    (hvalue : block.lookup field.name = some value) :
    Thinned thinned (writeValue field.type (start ++ field.name) value out)
      (countersValue field.type (start ++ field.name) value) (start ++ field.name) := by
  intro k hk
  rw [← get?_write_of_some hschema hfield hvalue hk]
  refine (h k hk).imp_right (And.imp_right fun hmem => ?_)
  obtain ⟨counter, hcounter, rfl⟩ := List.mem_map.1 hmem
  exact List.mem_map_of_mem (mem_countersValue_of_under hschema hfield hvalue hcounter hk)

/-- A field that is not there has no attributes, whatever has been lost. -/
theorem Thinned.vacant {field : Field}
    (h : Thinned thinned (write schema start block out) (counters schema start block)
      (start ++ field.name))
    (hschema : schema.DistinctNames) (hfield : field ∈ schema)
    (hvalue : block.lookup field.name = none) (hvacant : Vacant out (start ++ field.name)) :
    Vacant thinned (start ++ field.name) := by
  intro k hk
  rcases h k hk with heq | ⟨hnone, -⟩
  · rw [heq, get?_write_of_none hschema hfield hvalue hk]
    exact hvacant k hk
  · exact hnone

/-- An element has lost counters of its own only. -/
theorem Thinned.inside {i : Nat}
    (h : Thinned thinned (writeValue (.block fields singular) key value out)
      (countersValue (.block fields singular) key value) key)
    (helement : value.elements[i]? = some element) (field : Field) :
    Thinned thinned (write fields (elementPrefix key i) element out)
      (counters fields (elementPrefix key i) element) (elementPrefix key i ++ field.name) := by
  intro k hk
  have hunder := hk.of_elementPrefix
  have hsame : (writeValue (.block fields singular) key value out).get? k =
      (write fields (elementPrefix key i) element out).get? k :=
    get?_writeBlocks_element helement hunder
  rw [← hsame]
  refine (h k hunder.of_member).imp_right (And.imp_right fun hmem => ?_)
  obtain ⟨counter, hcounter, rfl⟩ := List.mem_map.1 hmem
  exact List.mem_map_of_mem (mem_counters_of_under helement hcounter hunder)

/-- The length of an array is read from its counter or, if that is missing, from its items. -/
theorem Thinned.readLength_eq {n : Nat} {full : Attributes} {counted : List (String × Nat)}
    (h : Thinned thinned full counted key) (hbound : n + 1 ≤ Decimal.maxNat64)
    (hlength : full.get? (lengthKey key) = some (toString (n + 1)))
    (hall : ∀ k, Under key k → k ≠ lengthKey key → (full.get? k).isSome →
      ∃ i ≤ n, Under (memberKey key (toString i)) k)
    (hlast : ∃ k, Under (memberKey key (toString n)) k ∧ (thinned.get? k).isSome) :
    readLength thinned key = .ok (some (n + 1)) := by
  rcases h _ (.lengthKey key) with heq | ⟨hnone, -⟩
  · exact readLength_of_counter hbound (heq.trans hlength)
  · simp only [readLength, hnone]
    refine congrArg Except.ok (inferredLength?_eq hbound (fun rest hsome => ?_) hlast)
    refine hall _ (.member key rest) ?_ (h.isSome (.member key rest) hsome)
    rintro heq
    rw [heq, hnone] at hsome
    cases hsome

theorem readTextList_of_thinned {items : List String} (hbound : items.length ≤ Decimal.maxNat64)
    (hne : items ≠ []) (hvacant : Vacant out key)
    (h : Thinned thinned (writeTextList key items out) [(lengthKey key, items.length)] key) :
    readValue .textList thinned key = .ok (some (.arr (items.map .str))) := by
  have hitems : ∀ (i : Nat) (s : String), items[i]? = some s →
      thinned.get? (memberKey key (toString i)) = some s := by
    intro i s hs
    rw [h.get?_eq (.member key _), get?_writeTextList_item hs]
    rintro counter hcounter heq
    obtain rfl := List.mem_singleton.1 hcounter
    exact not_under_lengthKey key i (heq ▸ .refl _)
  obtain ⟨n, hn⟩ := Nat.exists_eq_add_one_of_ne_zero fun hzero =>
    hne (List.length_eq_zero_iff.1 hzero)
  have hlength : readLength thinned key = .ok (some items.length) := by
    rw [hn] at hbound ⊢
    refine h.readLength_eq hbound ?_ (fun k hk hcounter hsome => ?_) ⟨_, .refl _, ?_⟩
    · rw [get?_writeTextList_length (hn ▸ hbound), hn]
    · by_contra hnone
      rw [get?_writeTextList_frame hcounter fun i hi heq => ?_, hvacant k hk] at hsome
      · cases hsome
      · exact hnone ⟨i, Nat.le_of_lt_succ (Nat.lt_of_lt_of_eq hi hn), heq ▸ .refl _⟩
    · rw [hitems n items[n] (List.getElem?_eq_getElem _)]
      rfl
  simp only [readValue, hlength]
  refine congrArg (fun texts => Except.ok (some (Json.arr texts))) ?_
  exact filterMap_range fun i s hs => by rw [hitems i s hs, Option.map_some]

theorem readTextMap_of_thinned {texts : Dict String} {size : Nat}
    (hreserved : texts.get? "%" = none) (hne : texts ≠ Dict.empty) (hvacant : Vacant out key)
    (h : Thinned thinned (writeTextMap key (texts.entries.map fun (k, s) => (k, .str s)) out)
      [(sizeKey key, size)] key) :
    readValue .textMap thinned key = .ok (some (Json.ofTexts texts)) := by
  rw [readValue, readTextMap_of_entries hreserved (.inr hne)]
  intro k hk
  rw [h.get?_eq (.member key k), get?_writeTextMap, Block.texts_entries, if_neg hk,
    hvacant _ (.member key k), Option.or_none]
  intro counter hcounter heq
  obtain rfl := List.mem_singleton.1 hcounter
  exact hk (memberKey_inj (heq.trans (sizeKey_eq key)))

/-- A block that is not empty is read from some attribute. -/
theorem exists_get?_of_read (h : read schema attributes start [] = .ok block) (hne : block ≠ []) :
    ∃ field ∈ schema, ∃ k, Under (start ++ field.name) k ∧ (attributes.get? k).isSome := by
  by_contra hnone
  push Not at hnone
  have hvacant : ∀ field ∈ schema, Vacant attributes (start ++ field.name) := by
    intro field hfield k hk
    exact Option.not_isSome_iff_eq_none.1 (hnone field hfield k hk)
  have hempty : read schema attributes start [] = .ok [] :=
    read_of_covers (.of_lookup .nil fun _ _ => rfl) fun field hfield =>
      readValue_of_vacant field.type (hvacant field hfield)
  exact hne (Except.ok.inj (h.symm.trans hempty))

theorem readBlocks_of_thinned {blocks : List Block} (hbound : blocks.length ≤ Decimal.maxNat64)
    (hne : blocks ≠ []) (hpopulated : ∀ element ∈ blocks, element ≠ []) (hvacant : Vacant out key)
    (h : Thinned thinned (writeValue (.block fields singular) key (.arr (blocks.map .obj)) out)
      (countersValue (.block fields singular) key (.arr (blocks.map .obj))) key)
    (hread : ∀ i element, blocks[i]? = some element →
      read fields thinned (elementPrefix key i) [] = .ok element) :
    readValue (.block fields singular) thinned key = .ok (some (.arr (blocks.map .obj))) := by
  obtain ⟨n, hn⟩ := Nat.exists_eq_add_one_of_ne_zero fun hzero =>
    hne (List.length_eq_zero_iff.1 hzero)
  have hlength : readLength thinned key = .ok (some blocks.length) := by
    rw [hn] at hbound ⊢
    refine h.readLength_eq hbound ?_ (fun k hk hcounter hsome => ?_) ?_
    · rw [get?_writeBlocks_length (by rwa [Json.elements_arr, hn]), Json.elements_arr, hn]
    · by_contra hnone
      rw [get?_writeBlocks_frame hcounter fun i hi hunder => ?_, hvacant k hk] at hsome
      · cases hsome
      · rw [Json.elements_arr, hn] at hi
        exact hnone ⟨i, Nat.le_of_lt_succ hi, hunder⟩
    · have hlast : blocks[n]? = some blocks[n] := List.getElem?_eq_getElem _
      obtain ⟨field, -, k, hunder, hsome⟩ := exists_get?_of_read (hread n _ hlast)
        (hpopulated _ (List.getElem_mem _))
      exact ⟨k, hunder.of_elementPrefix, hsome⟩
  simp only [readValue, hlength, Steps.bind_ok, Steps.mapM_range hread, Steps.pure_eq_ok]

/-- A value without counters has lost nothing. -/
theorem readValue_of_thinned_scalar {field : Field} (hadmits : field.type.Admits value)
    (hstorable : Storable field value) (hvacant : Vacant out key)
    (hscalar : ∀ fields singular, field.type ≠ .block fields singular)
    (h : Thinned thinned (writeValue field.type key value out) [] key) :
    readValue field.type thinned key = .ok (some value) := by
  have hheld := writeValue_records (hstorable.bounded hadmits) hvacant fun fields singular htype =>
    absurd htype (hscalar fields singular)
  rw [recordedValue_of_admits hadmits hstorable fun fields singular htype =>
    absurd htype (hscalar fields singular)] at hheld
  exact readValue_eq (hheld.congr fun k hk => h.get?_eq hk fun _ hcounter => nomatch hcounter)

/-- A value that is not empty is read whatever counters have been lost, if the same is true of the
blocks in it. -/
theorem readValue_of_thinned {field : Field} (hadmits : field.type.Admits value)
    (hstorable : Storable field value) (hpopulated : Populated field value)
    (hvacant : Vacant out key)
    (h : Thinned thinned (writeValue field.type key value out) (countersValue field.type key value)
      key)
    (hblock : ∀ fields singular, field.type = .block fields singular → ∀ i element,
      value.elements[i]? = some element →
        read fields thinned (elementPrefix key i) [] = .ok element) :
    readValue field.type thinned key = .ok (some value) := by
  obtain ⟨name, type, presence, default⟩ := field
  obtain ⟨hitems, hentries, helements⟩ := hpopulated
  have hheld := hadmits
  cases hadmits with
  | text s => exact readValue_of_thinned_scalar hheld hstorable hvacant (fun _ _ => nofun) h
  | int i hlow hhigh =>
      exact readValue_of_thinned_scalar hheld hstorable hvacant (fun _ _ => nofun) h
  | bool b => exact readValue_of_thinned_scalar hheld hstorable hvacant (fun _ _ => nofun) h
  | textList items =>
      have hbound : items.length ≤ Decimal.maxNat64 := by
        simpa [Storable, Json.arr?] using hstorable
      refine readTextList_of_thinned hbound (fun hempty => hitems (by rw [hempty]; rfl)) hvacant ?_
      simpa only [countersValue, writeValue, Json.arr?, Option.getD_some, filterMap_str?] using h
  | textMap texts =>
      have hne : texts ≠ Dict.empty := fun hempty => hentries (by rw [hempty]; rfl)
      exact readTextMap_of_thinned hstorable.get?_eq_none hne hvacant h
  | block fields singular blocks hcovers =>
      rw [Json.elements_arr] at helements
      have hbound : blocks.length ≤ Decimal.maxNat64 := by
        simpa [Storable, Json.arr?] using hstorable
      refine readBlocks_of_thinned hbound (fun hempty => hitems (by rw [hempty]; rfl)) helements
        hvacant h fun i element helement => ?_
      exact hblock fields singular rfl i element (by rwa [Json.elements_arr])

/-- A block without empty values is read whatever counters have been lost. -/
theorem read_of_thinned (hschema : schema.WellNamed) (haccepts : schema.Accepts block)
    (hstorable : schema.Every Storable block) (hpopulated : schema.Every Populated block)
    (hvacant : ∀ field ∈ schema, Vacant out (start ++ field.name))
    (h : ∀ field ∈ schema, Thinned thinned (write schema start block out)
      (counters schema start block) (start ++ field.name)) :
    read schema thinned start [] = .ok block := by
  induction hschema generalizing start block out with
  | @intro schema here _ ih =>
      refine read_of_covers haccepts.covers fun field hfield => ?_
      cases hvalue : block.lookup field.name with
      | none =>
          refine readValue_of_vacant _ ?_
          exact (h field hfield).vacant here hfield hvalue (hvacant field hfield)
      | some value =>
          have hthinned := (h field hfield).field here hfield hvalue
          refine readValue_of_thinned (haccepts.typed.here hfield hvalue)
            (hstorable.here hfield hvalue) (hpopulated.here hfield hvalue) (hvacant field hfield)
            hthinned fun fields singular htype i element helement => ?_
          rw [htype] at hthinned
          have hmem := List.mem_of_getElem? helement
          refine ih field hfield fields singular htype (haccepts.element hfield hvalue htype hmem)
            (hstorable.inside hfield hvalue htype hmem) (hpopulated.inside hfield hvalue htype hmem)
            (fun inner _ k hk => ?_) fun inner _ => hthinned.inside helement inner
          exact hvacant field hfield k hk.of_elementPrefix.of_member

theorem get?_filter_not_mem (attributes : Attributes) (lost : List String) (k : String) :
    (attributes.filter fun k _ => k ∉ lost).get? k =
      if k ∈ lost then none else attributes.get? k := by
  rw [Dict.get?_filter]
  cases attributes.get? k with
  | none => simp
  | some s => simp [Option.filter_some]

/-- A tree without empty values is read back after any of its counters have been lost. -/
theorem ofAttributes_without_counters (hschema : schema.WellNamed)
    (haccepts : schema.Accepts block) (hstorable : schema.Every Storable block)
    (hpopulated : schema.Every Populated block) {lost : List String}
    (hlost : ∀ k ∈ lost, k ∈ (counters schema "" block).map (·.1)) :
    ofAttributes schema ((toAttributes schema (.obj block)).filter fun k _ => k ∉ lost) =
      .ok (.obj block) := by
  have hread : read schema ((toAttributes schema (.obj block)).filter fun k _ => k ∉ lost) "" [] =
      .ok block := by
    have hvacant : ∀ field ∈ schema, Vacant Dict.empty ("" ++ field.name) := fun _ _ _ _ => rfl
    refine read_of_thinned hschema haccepts hstorable hpopulated hvacant fun field _ k _ => ?_
    rw [get?_filter_not_mem]
    by_cases hmem : k ∈ lost
    · exact .inr ⟨if_pos hmem, hlost k hmem⟩
    · exact .inl (if_neg hmem)
  rw [ofAttributes, hread]
  rfl

/-- The counters of a list, a map and a nested block are lost, and that of the outer block is not.
An entry of the map has the key that a counter of a list has. -/
theorem ofAttributes_without_counters_nested :
    let fields : Schema := [.textMap "labels" .optional, .int "size" .optional]
    let inner : Schema := [.repeated "parts" fields .optional, .textList "tags" .optional]
    let schema : Schema := [.single "outer" inner .required]
    let labels : Json := .obj [("#", .str "7"), ("0.a", .str "b")]
    let block : Block := [("outer", .arr [.obj
      [("parts", .arr [.obj [("size", .int (-3))], .obj [("labels", labels)]]),
       ("tags", .arr [.str "x", .str ""])]])]
    let lost := ["outer.0.parts.#", "outer.0.parts.1.labels.%", "outer.0.tags.#"]
    (∀ k ∈ lost, ((toAttributes schema (.obj block)).get? k).isSome) ∧
      ofAttributes schema ((toAttributes schema (.obj block)).filter fun k _ => k ∉ lost) =
        .ok (.obj block) :=
  ⟨by decide, ofAttributes_without_counters (by decide) (by decide) (by decide) (by decide)
    (by decide)⟩

end Reconcile.Schema
