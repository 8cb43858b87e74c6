import Phrasebook.Proofs.Survey
import Mathlib.Data.List.Infix

/-!
# Walks that swallow failures

A walk below a key that fails leaves the key where it is. Whoever swallows the failure goes on too
deep, and no later step comes up again: a walk can only end as deep as it started or deeper. So
every walk around the failed one is found out when it ends, and so is the whole walk at the root.
-/

namespace Phrasebook.KeyStack

variable {α : Type}

/-- What a walk does by hand. What comes next may depend on the path that was read, or on how the
walk below a key ended: its failure is handed on when the next step is to fail, and swallowed when
it is anything else. A step that fails and is swallowed at once does nothing, and is no step here. -/
inductive Program (α : Type) where
  | done (value : α)
  | fail (failure : Failure)
  | child (key : String) (next : KeyPath → Program α)
  | within (key : String) (body : Program α) (next : Except Failure α → Program α)

/-- What happens in a walk, in order. Of a walk below a key there is the position before and after
it, what happens in it, and how it ends. -/
inductive Record (α : Type) where
  | nothing
  | read (key : String) (path : KeyPath) (rest : Record α)
  | descent (key : String) (before : KeyStack) (inner : Record α) (result : Except Failure α)
      (after : KeyStack) (rest : Record α)

/-- A walk below a key that took place. -/
structure Descent (α : Type) where
  key : String
  before : KeyStack
  inner : Record α
  result : Except Failure α
  after : KeyStack

namespace Program

def walk : Program α → Walk α
  | .done value => fun stack => (.ok value, stack)
  | .fail failure => fun stack => (.error failure, stack)
  | .child key next => fun stack => (next (stack.child key)).walk stack
  | .within key body next => fun stack =>
      let (result, after) := KeyStack.within key body.walk stack
      (next result).walk after

/-- What happens when the walk starts from a position. -/
def record : Program α → KeyStack → Record α
  | .done _, _ => .nothing
  | .fail _, _ => .nothing
  | .child key next, stack =>
      .read key (stack.child key) ((next (stack.child key)).record stack)
  | .within key body next, stack =>
      let (result, after) := KeyStack.within key body.walk stack
      .descent key stack (body.record ⟨stack.child key⟩) result after ((next result).record after)

end Program

namespace Record

/-- The keys whose paths were read, with what was read. What was read below other keys is left
out. -/
def reads : Record α → List (String × KeyPath)
  | .nothing => []
  | .read key path rest => (key, path) :: rest.reads
  | .descent _ _ _ _ _ rest => rest.reads

/-- All walks below keys, also inside of each other. -/
def descents : Record α → List (Descent α)
  | .nothing => []
  | .read _ _ rest => rest.descents
  | .descent key before inner result after rest =>
      ⟨key, before, inner, result, after⟩ :: (inner.descents ++ rest.descents)

end Record

namespace Descent

def Failed (descent : Descent α) : Prop :=
  ∃ failure, descent.result = .error failure

/-- Whether a walk below a key succeeded can be told from the positions, and a failure inside of it
is a failure of its own. -/
structure Sound (descent : Descent α) : Prop where
  /-- After a success the position is what it was, and each path that was read is one of it. -/
  level : ∀ value, descent.result = .ok value →
    descent.after = descent.before ∧
      ∀ read ∈ descent.inner.reads, read.2 = descent.before.keys ++ [descent.key, read.1]
  /-- After a failure the position is deeper than it was. -/
  deeper : ∀ failure, descent.result = .error failure →
    descent.before.keys <+: descent.after.keys ∧ descent.before.keys ≠ descent.after.keys
  /-- No failure inside is swallowed for good. -/
  surfaces : ∀ inside ∈ descent.inner.descents, inside.Failed → descent.Failed

end Descent

/-! ## One walk below a key -/

theorem child_prefix_ne {key : String} {stack after : KeyStack}
    (below : stack.child key <+: after.keys) :
    stack.keys <+: after.keys ∧ stack.keys ≠ after.keys := by
  have front : stack.keys <+: stack.child key := List.prefix_append _ _
  refine ⟨front.trans below, fun same => ?_⟩
  have bound := below.length_le
  rw [child_eq, List.length_append, ← same, List.length_singleton] at bound
  omega

/-- A walk below a key that came no higher either came back and is left, or fails where it is. -/
theorem within_cases {key : String} {walk : Walk α} {stack : KeyStack}
    (below : stack.child key <+: (walk ⟨stack.child key⟩).2.keys) :
    ((walk ⟨stack.child key⟩).2 = ⟨stack.child key⟩ ∧
      ∃ value, KeyStack.within key walk stack = (.ok value, stack)) ∨
    ∃ failure, KeyStack.within key walk stack = (.error failure, (walk ⟨stack.child key⟩).2) := by
  unfold KeyStack.within
  generalize walk ⟨stack.child key⟩ = outcome at below ⊢
  obtain ⟨result, after⟩ := outcome
  cases result with
  | error failure => exact Or.inr ⟨failure, rfl⟩
  | ok value =>
      by_cases depth : after.depth = stack.depth + 1
      · -- as long as the path below the key, and it opens with that path
        have same : stack.child key = after.keys := by
          apply below.eq_of_length
          rw [child_eq, List.length_append, List.length_singleton]
          exact depth.symm
        obtain rfl : after = ⟨stack.child key⟩ := congrArg KeyStack.mk same.symm
        refine Or.inl ⟨rfl, value, ?_⟩
        exact within_of_balanced key value stack
      · exact Or.inr ⟨_, if_pos depth⟩

/-! ## Whole walks -/

/-- What a walk leaves when it starts from a position: it never comes higher, and it is back at the
position exactly when no walk below a key failed. -/
structure Traced (stack after : KeyStack) (record : Record α) : Prop where
  below : stack.keys <+: after.keys
  level : after = stack ↔ ∀ descent ∈ record.descents, ¬ descent.Failed
  reads : after = stack → ∀ read ∈ record.reads, read.2 = stack.keys ++ [read.1]
  sound : ∀ descent ∈ record.descents, descent.Sound

namespace Traced

variable {key : String} {stack inside after : KeyStack} {inner rest : Record α}

theorem nothing (stack : KeyStack) : Traced stack stack (.nothing : Record α) where
  below := List.prefix_rfl
  level := iff_of_true rfl nofun
  reads := fun _ => nofun
  sound := nofun

theorem read (key : String) (traced : Traced stack after rest) :
    Traced stack after (.read key (stack.child key) rest) where
  below := traced.below
  level := traced.level
  reads := by
    intro back
    rw [Record.reads, List.forall_mem_cons]
    exact ⟨rfl, traced.reads back⟩
  sound := traced.sound

/-- Inside a walk that came back nothing failed, and what follows starts where it started. -/
theorem left (value : α)
    (traced : Traced ⟨stack.child key⟩ ⟨stack.child key⟩ inner) (goesOn : Traced stack after rest) :
    Traced stack after (.descent key stack inner (.ok value) stack rest) := by
  have silent : ∀ descent ∈ inner.descents, ¬ descent.Failed := traced.level.mp rfl
  have succeeded : ¬ (⟨key, stack, inner, .ok value, stack⟩ : Descent α).Failed := nofun
  refine ⟨goesOn.below, ?_, goesOn.reads, ?_⟩
  · rw [goesOn.level, Record.descents, List.forall_mem_cons, List.forall_mem_append]
    exact ⟨fun later => ⟨succeeded, silent, later⟩, fun all => all.2.2⟩
  · rw [Record.descents, List.forall_mem_cons, List.forall_mem_append]
    refine ⟨⟨fun _ _ => ⟨rfl, fun read member => ?_⟩, nofun, fun descent member failed => ?_⟩,
      traced.sound, goesOn.sound⟩
    · rw [traced.reads rfl read member, child_eq, List.append_assoc]
      rfl
    · exact absurd failed (silent descent member)

/-- A failed walk keeps everything after it below the key. -/
theorem stuck (failure : Failure)
    (traced : Traced ⟨stack.child key⟩ inside inner) (goesOn : Traced inside after rest) :
    Traced stack after (.descent key stack inner (.error failure) inside rest) := by
  have failed : (⟨key, stack, inner, .error failure, inside⟩ : Descent α).Failed := ⟨failure, rfl⟩
  obtain ⟨below, apart⟩ := child_prefix_ne (traced.below.trans goesOn.below)
  have away : after ≠ stack := fun back => apart (congrArg keys back.symm)
  refine ⟨below, ?_, fun back => absurd back away, ?_⟩
  · refine iff_of_false away fun none => none _ ?_ failed
    exact List.mem_cons_self
  · rw [Record.descents, List.forall_mem_cons, List.forall_mem_append]
    exact ⟨⟨nofun, fun _ _ => child_prefix_ne traced.below, fun _ _ _ => failed⟩,
      traced.sound, goesOn.sound⟩

end Traced

/-- By induction on what is done: each walk below a key comes back or stays below, and what follows
it starts from there. -/
theorem traced_walk (program : Program α) (stack : KeyStack) :
    Traced stack (program.walk stack).2 (program.record stack) := by
  induction program generalizing stack with
  | done value => exact .nothing stack
  | fail failure => exact .nothing stack
  | child key next ih => exact (ih (stack.child key) stack).read key
  | within key body next ihBody ihNext =>
      have inner := ihBody ⟨stack.child key⟩
      unfold Program.walk Program.record
      rcases within_cases inner.below with ⟨back, value, outcome⟩ | ⟨failure, outcome⟩
      · rw [back] at inner
        rw [outcome]
        exact .left value inner (ihNext (.ok value) stack)
      · rw [outcome]
        exact .stuck failure inner (ihNext (.error failure) (body.walk ⟨stack.child key⟩).2)

theorem finish_eq_ok_iff {stack : KeyStack} : stack.finish = .ok () ↔ stack = {} := by
  obtain ⟨keys⟩ := stack
  cases keys with
  | nil => exact iff_of_true rfl rfl
  | cons key rest => exact iff_of_false nofun nofun

/-- Whatever is done from the root: a walk below a key that succeeds leaves the position as it was,
and the paths read in it are those of its keys. One that fails leaves a deeper position. When it
fails, all walks around it fail, also where its failure is swallowed. The walk ends at the root
exactly when none of them failed. -/
theorem failures_surface (program : Program α) :
    (∀ descent ∈ (program.record {}).descents, descent.Sound) ∧
      ((program.walk {}).2.finish = .ok () ↔
        ∀ descent ∈ (program.record {}).descents, ¬ descent.Failed) := by
  have traced := traced_walk program {}
  exact ⟨traced.sound, finish_eq_ok_iff.trans traced.level⟩

/-- The failure below `menu` is swallowed below `dialog`, which then reads a path too deep and is
found out. -/
example :
    let program : Program Unit :=
      .within "dialog" (.within "menu" (.fail (.raised "no menu")) fun _ => .child "ok" fun _ => .done ())
        fun _ => .done ()
    (program.record {}).descents.map (fun descent => (descent.key, descent.after.keys)) =
        [("dialog", ["dialog", "menu"]), ("menu", ["dialog", "menu"])] ∧
      (program.walk {}).2.finish = .error (.pathMismatch "" "menu") := by
  decide

end Phrasebook.KeyStack
