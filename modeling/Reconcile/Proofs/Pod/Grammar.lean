import Mathlib.Data.List.Basic
import Reconcile.Pod.Declaration
import Reconcile.Proofs.Block.Grammar

/-!
# Blocks that declare pods

A container is declared by a block that names it, with ports that are numbered and variables that
are named, and the specification of a pod by a block of which every container is declared. Items
that are no objects are passed over, and nothing else that the block holds is of account.
-/

namespace Reconcile

open Declaration

/-- A block that declares a port. -/
structure ContainerPort.Grammatical (block : Block) : Prop where
  containerPort : Block.HasInt32 block "container_port"
  hostPort : Block.FitsInt32 block "host_port"

/-- A block that declares a container. -/
structure Container.Grammatical (block : Block) : Prop where
  name : Block.HasText block "name"
  ports : ∀ port, Block.HasElement block "port" port → ContainerPort.Grammatical port
  env : ∀ entry, Block.HasElement block "env" entry → Block.HasText entry "name"

/-- A block that declares the specification of a pod. -/
structure PodSpec.Grammatical (block : Block) : Prop where
  containers : ∀ container, Block.HasElement block "container" container →
    Container.Grammatical container
  initContainers : ∀ container, Block.HasElement block "init_container" container →
    Container.Grammatical container

/-- The reader of ports accepts exactly the blocks of their grammar, and any other one has an
invalid shape. -/
theorem ContainerPort.decides_expand (path : String) (block : Block) :
    Decides (expand path block) (Grammatical block) := by
  refine (decides_requiredInt32 fun _ => (decides_int32? block "host_port" path).pure _).congr ?_
  exact ⟨fun h => ⟨h.1, h.2⟩, fun h => ⟨h.containerPort, h.hostPort⟩⟩

/-- The reader of variables accepts exactly the blocks with a name, and any other one has an invalid
shape. -/
theorem EnvVar.decides_expand (path : String) (block : Block) :
    Decides (expand path block) (Block.HasText block "name") :=
  decides_requiredText.pure _

/-- The reader of containers accepts exactly the blocks of their grammar, and any other one has an
invalid shape. -/
theorem Container.decides_expand (path : String) (block : Block) :
    Decides (expand path block) (Grammatical block) := by
  have hports := decides_children ContainerPort.decides_expand block "port" (path ++ ".port")
  have henv := decides_children EnvVar.decides_expand block "env" (path ++ ".env")
  refine (decides_requiredText.and fun _ => hports.and fun _ => henv.pure _).congr ?_
  exact ⟨fun ⟨hname, hports, henv⟩ => ⟨hname, hports, henv⟩, fun h => ⟨h.name, h.ports, h.env⟩⟩

/-- The reader of pods accepts exactly the blocks of their grammar, and any other one has an invalid
shape. -/
theorem PodSpec.decides_expand (block : Block) :
    Decides (expand block) (Grammatical block) := by
  have hcontainers := decides_children Container.decides_expand block "container" "container"
  have hinit := decides_children Container.decides_expand block "init_container"
    "init_container"
  refine (hcontainers.and fun _ => hinit.pure _).congr ?_
  exact ⟨fun h => ⟨h.1, h.2⟩, fun h => ⟨h.containers, h.initContainers⟩⟩

end Reconcile
