import Mathlib.Data.List.Basic
import Reconcile.Proofs.Block.Nested
import Reconcile.Proofs.Wire.Fields

/-!
# What a declaration takes and what it refuses

What a block declares is read in steps, each of which takes the block or refuses it as malformed.
`Declaration.Decides` says under which condition a reader takes its block, and the condition of a
reader is put together from those of its steps (`Decides.bind`, `decides_children`). The conditions
are said on the values that a block holds: on all of them, also on those of another type, which the
readers pass over.
-/

namespace Reconcile

namespace Block

variable {block : Block} {key : String}

/-- The value at a key is an array that begins with an object. -/
def BeginsWith (block : Block) (key : String) (child : Block) : Prop :=
  ∃ items, block.lookup key = some (.arr (.obj child :: items))

/-- The value at a key is an array that holds an object, wherever it is and whatever else there
is. -/
def HasElement (block : Block) (key : String) (child : Block) : Prop :=
  ∃ items, block.lookup key = some (.arr items) ∧ .obj child ∈ items

/-- The value at a key is a text that is not empty. -/
def HasText (block : Block) (key : String) : Prop :=
  ∃ s, block.lookup key = some (.str s) ∧ s ≠ ""

/-- The value at a key is an array that holds a text. -/
def HasTextItem (block : Block) (key : String) : Prop :=
  ∃ items s, block.lookup key = some (.arr items) ∧ .str s ∈ items

/-- The value at a key is an integer of 32 bits. -/
def HasInt32 (block : Block) (key : String) : Prop :=
  ∃ i, block.lookup key = some (.int i) ∧ Json.minInt32 ≤ i ∧ i ≤ Json.maxInt32

/-- The value at a key, if it is an integer of 64 bits, is one of 32 bits. -/
def FitsInt32 (block : Block) (key : String) : Prop :=
  ∀ i, block.lookup key = some (.int i) → Json.minInt64 ≤ i → i ≤ Json.maxInt64 →
    Json.minInt32 ≤ i ∧ i ≤ Json.maxInt32

/-- The elements of a nested block are the objects of its array. -/
theorem mem_children_iff {child : Block} :
    child ∈ children block key ↔ HasElement block key child := by
  have helements : ∀ items : List Json,
      child ∈ items.filterMap Json.obj? ↔ .obj child ∈ items := by
    intro items
    rw [List.mem_filterMap]
    constructor
    · rintro ⟨item, hitem, hobj⟩
      cases item with
      | obj fields =>
          cases hobj
          exact hitem
      | _ => cases hobj
    · exact fun hitem => ⟨.obj child, hitem, rfl⟩
  unfold children HasElement
  cases hvalue : block.lookup key with
  | none => simp
  | some value =>
      cases value with
      | arr items => simpa [Json.arr?] using helements items
      | _ => simp [Json.arr?]

theorem text?_isSome_iff : (text? block key).isSome ↔ HasText block key := by
  unfold text? HasText
  cases hvalue : block.lookup key with
  | none => simp
  | some value =>
      cases value with
      | str s => simp [Json.str?, Option.isSome_filter]
      | _ => simp [Json.str?]

theorem textList_ne_nil_iff : textList block key ≠ [] ↔ HasTextItem block key := by
  have htexts : ∀ items : List Json, items.filterMap Json.str? ≠ [] ↔ ∃ s, .str s ∈ items := by
    intro items
    rw [Ne, List.filterMap_eq_nil_iff]
    constructor
    · intro hsome
      obtain ⟨item, hitem⟩ := not_forall.1 hsome
      obtain ⟨hmem, htext⟩ := Classical.not_imp.1 hitem
      cases item with
      | str s => exact ⟨s, hmem⟩
      | _ => exact absurd rfl htext
    · rintro ⟨s, hmem⟩ hnone
      cases hnone _ hmem
  unfold textList HasTextItem
  cases hvalue : block.lookup key with
  | none => simp
  | some value =>
      cases value with
      | arr items => simpa [Json.arr?] using htexts items
      | _ => simp [Json.arr?]

/-- The integers that are read are those of 64 bits. -/
theorem int?_eq_some_iff {n : Int64} : int? block key = some n ↔
    block.lookup key = some (.int n.toInt) := by
  constructor
  · intro h
    obtain ⟨value, hvalue, hint⟩ := Option.bind_eq_some_iff.1 h
    cases value with
    | int i =>
        obtain ⟨⟨hlow, hhigh⟩, hn⟩ := Option.ite_none_right_eq_some.1 hint
        have hbound : i < 2 ^ 63 := by
          rw [Json.maxInt64] at hhigh
          omega
        rw [hvalue, ← Option.some.inj hn, Int64.toInt_ofInt_of_le hlow hbound]
    | _ => cases hint
  · intro h
    rw [int?, h]
    exact Wire.int64?_toInt n

/-- An integer of 64 bits is read wherever there is one. -/
theorem int?_of_lookup_int {i : Int} (h : block.lookup key = some (.int i))
    (hlow : Json.minInt64 ≤ i) (hhigh : i ≤ Json.maxInt64) :
    int? block key = some (Int64.ofInt i) := by
  rw [int?, h]
  exact Json.int64?_int hlow hhigh

end Block

namespace Declaration

variable {α β : Type} {result : Except Failure α} {condition : Prop}

/-- A reader has a result if a condition is met, and refuses everything else as malformed. -/
inductive Decides : Except Failure α → Prop → Prop where
  | takes (a : α) {condition : Prop} (h : condition) : Decides (.ok a) condition
  | refuses (cause : Malformed) {condition : Prop} (h : ¬ condition) :
    Decides (.error (.malformed cause)) condition

/-- There is a result exactly if the condition is met. -/
theorem Decides.exists_ok_iff (h : Decides result condition) :
    (∃ a, result = .ok a) ↔ condition := by
  cases h with
  | takes a h => exact ⟨fun _ => h, fun _ => ⟨a, rfl⟩⟩
  | refuses cause h =>
      refine ⟨?_, fun hcondition => absurd hcondition h⟩
      rintro ⟨a, ha⟩
      cases ha

/-- Whatever does not meet the condition is malformed. -/
theorem Decides.exists_malformed (h : Decides result condition) (hnot : ¬ condition) :
    ∃ cause, result = .error (.malformed cause) := by
  cases h with
  | takes a h => exact absurd h hnot
  | refuses cause h => exact ⟨cause, rfl⟩

theorem Decides.congr {other : Prop} (h : Decides result condition) (hother : condition ↔ other) :
    Decides result other := by
  rw [← hother]
  exact h

/-- Two steps have a result if the second one has one for what the first one gives. -/
theorem Decides.bind {next : α → Except Failure β} {conditions : α → Prop}
    (h : Decides result condition) (hnext : ∀ a, Decides (next a) (conditions a)) :
    Decides (result >>= next) (∃ a, result = .ok a ∧ conditions a) := by
  cases h with
  | takes a h =>
      refine (hnext a).congr ⟨fun hcondition => ⟨a, rfl, hcondition⟩, ?_⟩
      rintro ⟨b, hb, hcondition⟩
      cases hb
      exact hcondition
  | refuses cause h =>
      refine .refuses cause ?_
      rintro ⟨b, hb, -⟩
      cases hb

/-- Two steps of which the second one does not depend on what the first one gives. -/
theorem Decides.and {next : α → Except Failure β} {other : Prop} (h : Decides result condition)
    (hnext : ∀ a, Decides (next a) other) : Decides (result >>= next) (condition ∧ other) := by
  cases h with
  | takes a h => exact (hnext a).congr ⟨fun hother => ⟨h, hother⟩, And.right⟩
  | refuses cause h => exact .refuses cause fun hboth => h hboth.1

/-- A last step that only puts a result together adds no condition. -/
theorem Decides.pure (h : Decides result condition) (f : α → β) :
    Decides (result >>= fun a => pure (f a)) condition := by
  cases h with
  | takes a h => exact .takes (f a) h
  | refuses cause h => exact .refuses cause h

/-- The steps of a list have results if each of them has one. -/
theorem decides_mapM {f : α → Except Failure β} {conditions : α → Prop} {xs : List α}
    (h : ∀ x ∈ xs, Decides (f x) (conditions x)) :
    Decides (xs.mapM f) (∀ x ∈ xs, conditions x) := by
  induction xs with
  | nil => exact .takes [] (List.forall_mem_nil _)
  | cons x xs ih =>
      obtain ⟨hx, hxs⟩ := List.forall_mem_cons.1 h
      rw [List.mapM_cons, List.forall_mem_cons]
      exact hx.and fun y => (ih hxs).pure (y :: ·)

/-- A list is made of the elements of a nested block if each of them is taken. -/
theorem decides_children {expand : String → Block → Except Failure α} {conditions : Block → Prop}
    (h : ∀ path child, Decides (expand path child) (conditions child)) (block : Block)
    (key path : String) : Decides (children block key path expand)
      (∀ child, Block.HasElement block key child → conditions child) := by
  refine (decides_mapM fun x _ => h _ x.1).congr ?_
  simp only [← Block.mem_children_iff]
  constructor
  · intro hall child hchild
    obtain ⟨i, hi⟩ := List.mem_iff_getElem?.1 hchild
    exact hall (child, i) (List.mem_zipIdx_iff_getElem?.2 hi)
  · exact fun hall x hx => hall x.1 (List.fst_mem_of_mem_zipIdx hx)

variable {block : Block} {key path : String}

/-- What follows a block that has to be there is about the first element of its array. -/
theorem decides_requiredBlock {next : Block → Except Failure α} {conditions : Block → Prop}
    (h : ∀ child, Decides (next child) (conditions child)) :
    Decides (requiredBlock block key path >>= next)
      (∃ child, Block.BeginsWith block key child ∧ conditions child) := by
  have hfirst : Decides (requiredBlock block key path) (Block.child? block key).isSome := by
    unfold requiredBlock
    cases Block.child? block key with
    | some child => exact .takes child rfl
    | none => exact .refuses _ Bool.false_ne_true
  refine (hfirst.bind h).congr (exists_congr fun child => ?_)
  rw [requiredBlock_eq_ok, Block.child?_eq_some_iff]
  rfl

/-- What follows the fields of a tree is about an object. -/
theorem decides_root {tree : Tree} {next : Block → Except Failure α} {conditions : Block → Prop}
    (h : ∀ block, Decides (next block) (conditions block)) :
    Decides (root tree >>= next) (∃ block, tree = .obj block ∧ conditions block) := by
  cases tree with
  | obj block =>
      refine (h block).congr ⟨fun hcondition => ⟨block, rfl, hcondition⟩, ?_⟩
      rintro ⟨other, hother, hcondition⟩
      cases hother
      exact hcondition
  | _ =>
      refine .refuses .notObject ?_
      rintro ⟨other, hother, -⟩
      cases hother

theorem decides_requiredText :
    Decides (requiredText block key path) (Block.HasText block key) := by
  rw [← Block.text?_isSome_iff, requiredText]
  cases Block.text? block key with
  | some s => exact .takes s rfl
  | none => exact .refuses _ Bool.false_ne_true

theorem decides_int32 (value : Int64) (path : String) : Decides (int32 value path)
    (Json.minInt32 ≤ value.toInt ∧ value.toInt ≤ Json.maxInt32) := by
  unfold int32
  split
  · exact .takes _ ‹_›
  · exact .refuses _ ‹_›

/-- An integer of 64 bits fits 32 bits if the value at its key is said to. -/
theorem fitsInt32_of_int? {n : Int64} (h : Block.int? block key = some n) :
    (Json.minInt32 ≤ n.toInt ∧ n.toInt ≤ Json.maxInt32) ↔ Block.FitsInt32 block key := by
  have hvalue := Block.int?_eq_some_iff.1 h
  constructor
  · intro hfits i hi _ _
    cases hvalue.symm.trans hi
    exact hfits
  · exact fun hfits => hfits n.toInt hvalue n.minValue_le_toInt n.toInt_le

/-- Whatever is no integer of 64 bits is of no account. -/
theorem fitsInt32_of_none (h : Block.int? block key = none) : Block.FitsInt32 block key := by
  intro i hi hlow hhigh
  cases h.symm.trans (Block.int?_of_lookup_int hi hlow hhigh)

theorem decides_int32D (block : Block) (key : String) (default : Int32) (path : String) :
    Decides (int32D block key default path) (Block.FitsInt32 block key) := by
  unfold int32D
  split
  · exact (decides_int32 _ path).congr (fitsInt32_of_int? ‹_›)
  · exact .takes default (fitsInt32_of_none ‹_›)

theorem decides_int32? (block : Block) (key path : String) :
    Decides (int32? block key path) (Block.FitsInt32 block key) := by
  unfold int32?
  split
  · rename_i n hn
    exact ((decides_int32 n path).pure some).congr (fitsInt32_of_int? hn)
  · exact .takes none (fitsInt32_of_none ‹_›)

theorem requiredInt_eq_ok {n : Int64} :
    requiredInt block key path = .ok n ↔ Block.int? block key = some n := by
  unfold requiredInt
  cases Block.int? block key with
  | none => simp
  | some found => simp

/-- What follows an integer that has to be there and to fit 32 bits. -/
theorem decides_requiredInt32 {next : Int32 → Except Failure α} {other : Prop}
    (h : ∀ i, Decides (next i) other) :
    Decides (requiredInt block key path >>= fun n => int32 n path >>= next)
      (Block.HasInt32 block key ∧ other) := by
  have hfirst : Decides (requiredInt block key path) (Block.int? block key).isSome := by
    unfold requiredInt
    cases Block.int? block key with
    | some n => exact .takes n rfl
    | none => exact .refuses _ Bool.false_ne_true
  refine (hfirst.bind fun n => (decides_int32 n path).and h).congr ?_
  simp only [requiredInt_eq_ok]
  constructor
  · rintro ⟨n, hn, hfits, hother⟩
    exact ⟨⟨n.toInt, Block.int?_eq_some_iff.1 hn, hfits⟩, hother⟩
  · rintro ⟨⟨i, hi, hfits⟩, hother⟩
    have hlow : Json.minInt64 ≤ i := Int.le_trans (by decide) hfits.1
    have hhigh : i ≤ Json.maxInt64 := Int.le_trans hfits.2 (by decide)
    have hn := Block.int?_of_lookup_int hi hlow hhigh
    refine ⟨Int64.ofInt i, hn, (fitsInt32_of_int? hn).2 fun j hj _ _ => ?_, hother⟩
    cases hi.symm.trans hj
    exact hfits

end Declaration

end Reconcile
