import Mathlib.Data.List.Basic
import Reconcile.Proofs.Deployment.Declaration
import Reconcile.Proofs.Deployment.Wire
import Reconcile.Proofs.Json.Edits
import Reconcile.Proofs.Kind.Observable

/-!
# Deployments are observable

The drain of a deployment scales it to zero, which is declared content again. The tree that shows a
drained deployment therefore declares what is left of it.
-/

namespace Reconcile.Deployment

open Json.Edit Json.Pointer

/-- Deployments with the same content have the same specification. -/
theorem spec_eq {d d' : Deployment} (h : kind.content "spec" d = kind.content "spec" d') :
    d.spec = d'.spec := by
  rw [content_spec, content_spec] at h
  have hread : ∀ spec : Option DeploymentSpec,
      (spec.map DeploymentSpec.toJson).bind DeploymentSpec.ofJson? = spec := by
    intro spec
    cases spec with
    | none => rfl
    | some s => exact s.ofJson?_toJson
  rw [← hread d.spec, h, hread]

/-- The specification that a tree declares says everything. -/
theorem declared_spec {block : Block} {d : Deployment} (haccepts : schema.Accepts block)
    (h : expand (.obj block) = .ok d) :
    ∃ s, d.spec = some s ∧ s.Declared (Tree.block? (.obj block) "spec") := by
  obtain ⟨_, specBlock, s, _, _, hspecBlock, hspec, rfl⟩ := expand_eq_ok.1 h
  have hprior : Tree.block? (.obj block) "spec" = some specBlock := hspecBlock
  rw [hprior]
  refine ⟨s, rfl, DeploymentSpec.declared_of_expand (fun template metaBlock ht hm => ?_) hspec⟩
  have htemplate : PodTemplate.schema.Accepts template :=
    (haccepts.child hspecBlock rfl).child ht rfl
  have hmeta : ObjectMeta.templateSchema.Accepts metaBlock := htemplate.child hm rfl
  exact hmeta.lookup_eq_none (by decide)

/-! ## Scaling to zero -/

/-- The deployment with another specification that asks for no pods. -/
def idle (d : Deployment) (s : DeploymentSpec) : Deployment :=
  { d with spec := some { s with replicas := some 0 } }

theorem toJson_idle (d : Deployment) (s : DeploymentSpec) :
    (d.idle s).toJson = .obj (Entries.insert "spec"
      (.obj (Entries.insert "replicas" (.int 0) ((s.toJson.obj?).getD [])))
      ((d.toJson.obj?).getD [])) := by
  have hinner : (DeploymentSpec.toJson { s with replicas := some 0 }) =
      .obj (Entries.insert "replicas" (.int 0) ((s.toJson.obj?).getD [])) := by
    refine congrArg Json.obj (Block.insert_ofFields (by simp) (by simp) rfl fun k hk => ?_).symm
    have hk' : (k == "replicas") = false := beq_eq_false_iff_ne.2 hk
    simp only [List.lookup_cons, hk']
  rw [← hinner]
  refine congrArg Json.obj (Block.insert_ofFields (by simp) (by simp) rfl fun k hk => ?_).symm
  have hk' : (k == "spec") = false := beq_eq_false_iff_ne.2 hk
  simp only [List.lookup_cons, hk', idle]

/-- A deployment whose number of pods is said is scaled to zero. -/
theorem performAll?_drain {d : Deployment} {s : DeploymentSpec} (hspec : d.spec = some s)
    (hreplicas : s.replicas.isSome) :
    performAll? drain d.toJson = some (d.idle s).toJson := by
  obtain ⟨n, hn⟩ := Option.isSome_iff_exists.1 hreplicas
  have houter : ((d.toJson.obj?).getD []).lookup "spec" = some s.toJson := by
    rw [d.lookup_toJson "spec", hspec]
    rfl
  have hinner : ((s.toJson.obj?).getD []).lookup "replicas" = some (.int n.toInt) := by
    rw [s.lookup_toJson "replicas", hn]
    rfl
  have htokens : tokens? "/spec/replicas" = some ["spec", "replicas"] := by decide
  rw [drain, performAll?_cons, perform?_eq (.replace "/spec/replicas" (.int 0)) htokens,
    toJson_idle]
  show (update? (fun _ => some (Json.int 0)) ["spec", "replicas"]
    (.obj ((d.toJson.obj?).getD []))).bind _ = _
  have hs : s.toJson = .obj ((s.toJson.obj?).getD []) := rfl
  rw [hs] at houter
  simp only [update?, houter, hinner, Option.bind_eq_bind, Option.bind_some, performAll?_nil]

theorem drained_eq {d : Deployment} {s : DeploymentSpec} (hspec : d.spec = some s)
    (hreplicas : s.replicas.isSome) : kind.drained d = d.idle s := by
  have hperform : performAll? drain (kind.toJson d) = some (d.idle s).toJson :=
    performAll?_drain hspec hreplicas
  show ((performAll? drain (kind.toJson d)).bind ofJson?).getD d = _
  rw [hperform, Option.bind_some, ofJson?_toJson]
  rfl

/-- A deployment that follows a declared one has its specification, which may be scaled to
zero. -/
theorem spec_of_follows {interrupted : Bool} {declared live : Deployment} {s : DeploymentSpec}
    (hspec : declared.spec = some s) (hreplicas : s.replicas.isSome)
    (h : kind.Follows "spec" interrupted declared live) :
    live.spec = some s ∨ live.spec = some { s with replicas := some 0 } := by
  rcases h.content with hsame | ⟨_, hdrained⟩
  · exact .inl ((spec_eq hsame).trans hspec)
  · rw [drained_eq hspec hreplicas] at hdrained
    exact .inr (spec_eq hdrained)

/-- The tree that shows a deployment declares it again. -/
theorem observable : kind.Observable "spec" where
  key_ne_status := by decide
  ofJson?_toJson := ofJson?_toJson
  metadata_withMetadata _ _ := rfl
  content_withMetadata d m := by rw [content_spec, content_spec]; rfl
  exists_graft live other m := by
    refine ⟨{ live with metadata := m, spec := other.spec }, fun k => ?_⟩
    rw [content_spec]
    have hfields : ∀ d : Deployment, (kind.fields d).lookup k = _ := fun d => d.lookup_toJson k
    rw [hfields, hfields]
    by_cases hspec : k = "spec"
    · subst hspec
      rfl
    · by_cases hmeta : k = "metadata"
      · subst hmeta
        rfl
      · have hspec' : (k == "spec") = false := beq_eq_false_iff_ne.2 hspec
        have hmeta' : (k == "metadata") = false := beq_eq_false_iff_ne.2 hmeta
        simp only [if_neg hspec, if_neg hmeta, List.lookup_cons, hspec', hmeta']
  isSome_drained haccepts hexpand := by
    obtain ⟨s, hspec, hdeclared⟩ := declared_spec haccepts hexpand
    rw [drained_eq hspec hdeclared.replicas, content_spec, content_spec, hspec]
    rfl
  drained_congr haccepts hexpand haccepts' hexpand' hcontent := by
    obtain ⟨s, hspec, hdeclared⟩ := declared_spec haccepts hexpand
    obtain ⟨s', hspec', hdeclared'⟩ := declared_spec haccepts' hexpand'
    have hsame : s = s' := by
      have hspecs := spec_eq hcontent
      rw [hspec, hspec'] at hspecs
      exact Option.some.inj hspecs
    subst hsame
    rw [drained_eq hspec hdeclared.replicas, drained_eq hspec' hdeclared.replicas, content_spec,
      content_spec]
    rfl
  performAll?_drain {block declared live edits} haccepts hexpand hfollows hdrain := by
    obtain ⟨s, hspec, hdeclared⟩ := declared_spec haccepts hexpand
    have hedits : edits = drain := (Option.some.inj hdrain).symm
    subst hedits
    rw [drained_eq hspec hdeclared.replicas]
    -- An object that has been drained already is drained once more.
    rcases spec_of_follows hspec hdeclared.replicas hfollows with hlive | hlive
    · exact ⟨live.idle s, performAll?_drain hlive hdeclared.replicas, rfl, by
        rw [content_spec, content_spec]; rfl⟩
    · exact ⟨live.idle { s with replicas := some 0 }, performAll?_drain hlive rfl, rfl, by
        rw [content_spec, content_spec]; rfl⟩
  flatten_follows {block declared live name} haccepts hexpand hfollows hname hne := by
    obtain ⟨metaBlock, hprior, hmetaDeclared⟩ := hfollows.declaredBy lawful hexpand
    obtain ⟨s, hspec, hdeclared⟩ := declared_spec haccepts hexpand
    have hlive : ∃ t, live.spec = some t ∧ t.Declared (Tree.block? (.obj block) "spec") := by
      rcases spec_of_follows hspec hdeclared.replicas hfollows with hsame | hidle
      · exact ⟨s, hsame, hdeclared⟩
      · exact ⟨_, hidle, hdeclared.scaled 0⟩
    obtain ⟨t, ht, htDeclared⟩ := hlive
    refine ⟨live.shown (some metaBlock) (Tree.block? (.obj block) "spec"), _, ?_,
      live.shown_accepts _ _,
      expand_shown (ObjectMeta.hasName_flatten hname hne _) ht htDeclared, ?_⟩
    · rw [← hprior]
      exact live.flatten_eq (.obj block)
    · refine ⟨(ObjectMeta.labels_flatten hmetaDeclared).symm,
        (ObjectMeta.annotations_flatten hmetaDeclared).symm, .inl ?_⟩
      rw [content_spec, content_spec, ht]

end Reconcile.Deployment
