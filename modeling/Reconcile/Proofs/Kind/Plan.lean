import Reconcile.Proofs.Kind.Edits
import Reconcile.Proofs.Kind.Managed

/-!
# The edits of an update are correct

`plan_performs` says what the edits that an update plans do to the object that the old tree
declares: they apply, they bring about the labels, the annotations and the content that the new
tree declares once its gaps are filled, and they leave everything else alone.
-/

namespace Reconcile.Kind

open Json.Edit Json.Pointer

variable {α : Type} {kind : Kind α} {root key : String}

/-- The edits that an update plans between two trees apply to the object that the old one declares.
They leave the labels, the annotations and the content of the object that the new tree declares
once its gaps are filled, and everything elsewhere as it was. -/
theorem plan_performs (hkind : kind.Managed root key) {old new : Tree}
    (hold : kind.schema.Conforms old) (hnew : kind.schema.Conforms new) {before : α}
    {edits : List Json.Edit} (hexpand : kind.expand old = .ok before)
    (hplan : kind.plan old new = .ok edits) :
    ∃ after result, kind.expand (kind.schema.normalize (some old) new) = .ok after ∧
      performAll? edits (kind.toJson before) = some result ∧
      (∀ pointer ∈ ["/metadata/labels", "/metadata/annotations"], ∃ texts,
        Wire.textsAt? pointer result = some texts ∧
        Wire.textsAt? pointer (kind.toJson after) = some texts) ∧
      find? ("/" ++ key) result = find? ("/" ++ key) (kind.toJson after) ∧
      elsewhere key result = elsewhere key (kind.toJson before) := by
  have h := hkind.lawful
  obtain ⟨oldBlock, rfl, hold⟩ := hold
  obtain ⟨newBlock, rfl, hnew⟩ := hnew
  have hdesired : kind.schema.Accepts (kind.schema.fill (some oldBlock) newBlock) := by
    refine Schema.fill_accepts h.wellNamed h.typedDefaults (fun before hprior => ?_) hnew
    cases hprior
    exact hold
  obtain ⟨after, hafter, _⟩ := Steps.bind_eq_ok_iff.1 hplan
  -- The live object is the declared one here, and rebasing on it changes nothing.
  have hperform := h.performAll?_edits hold hdesired hexpand hafter hplan rfl rfl rfl
  rw [h.rebase_edits_self hold hdesired hexpand hafter hplan] at hperform
  have hcontent : kind.contentAfter root key oldBlock
      (kind.schema.fill (some oldBlock) newBlock) before after = kind.content key after := by
    unfold contentAfter
    split
    · rename_i hsame
      exact h.content_congr hexpand hafter hsame
    · rfl
  rw [hcontent] at hperform
  obtain ⟨hlabels, hannotations, hplace⟩ := h.places_edited before _ _ _
  obtain ⟨hlabels', hannotations', hplace'⟩ := h.places_toJson after
  refine ⟨after, _, hafter, hperform, ?_, hplace.trans hplace'.symm, h.elsewhere_edited _ _ _ _⟩
  intro pointer hpointer
  rcases List.mem_pair.1 hpointer with rfl | rfl
  · exact ⟨_, hlabels, hlabels'⟩
  · exact ⟨_, hannotations, hannotations'⟩

/-- A role whose labels change, whose annotations come into being and whose rules go. -/
theorem plan_performs_role :
    let block (metadata : Block) (rest : Block) : Tree :=
      .obj (("metadata", .arr [.obj metadata]) :: rest)
    let old := block [("labels", .obj [("a/~", .str "1"), ("b", .str "2")]), ("name", .str "r")]
      [("policy_rule", .arr [.obj [("verbs", .arr [.str "get"])]])]
    let new := block [("annotations", .obj [("c", .str "3")]), ("labels", .obj [("b", .str "4")]),
      ("name", .str "r")] []
    ∃ before edits after result, Role.kind.expand old = .ok before ∧
      Role.kind.plan old new = .ok edits ∧
      Role.kind.expand (Role.kind.schema.normalize (some old) new) = .ok after ∧
      performAll? edits (Role.kind.toJson before) = some result ∧
      find? "/rules" result = find? "/rules" (Role.kind.toJson after) ∧
      elsewhere "rules" result = elsewhere "rules" (Role.kind.toJson before) := by
  intro block old new
  have hold : Role.kind.schema.Conforms old := ⟨_, rfl, by decide⟩
  have hnew : Role.kind.schema.Conforms new := ⟨_, rfl, by decide⟩
  obtain ⟨before, hbefore⟩ : ∃ before, Role.kind.expand old = .ok before :=
    Steps.exists_of_isOk (by decide)
  obtain ⟨edits, hedits⟩ : ∃ edits, Role.kind.plan old new = .ok edits :=
    Steps.exists_of_isOk (by decide)
  obtain ⟨after, result, hafter, hresult, _, hrules, helsewhere⟩ :=
    plan_performs .role hold hnew hbefore hedits
  exact ⟨before, edits, after, result, hbefore, hedits, hafter, hresult, hrules, helsewhere⟩

end Reconcile.Kind
