import EntityGen.Generated.Get
import EntityGen.Generated.Put
import EntityGen.Semantics.Calls

/-! How the methods of a repository that read entities call each other, and so those that store
them. Each runs its own body, in which the others are called by their names; a call that nests
deeper than a bound is cut off. -/
namespace EntityGen

/-- What a method that there is for each entity type does with its argument, and what it gives
unless it has no meaning. -/
abbrev EntityCalls (σ : Type) := Entity → Operand → StateM σ (Option Operand)

/-- What reading an entity of a type by an id does, and what it gives unless it has no meaning. -/
abbrev EntityReads (σ : Type) := EntityCalls σ

namespace Host

variable {σ : Type}

/-- The entity that the method of this name is for, among methods that are named in one way. A name
that two of them have stands for none. -/
def owner? (host : Host σ) (naming : Ident → Ident) (name : Ident) : Option Entity :=
  match host.types.filter fun entity => naming entity.name == name with
  | [entity] => some entity
  | _ => none

/-- The methods that are named in one way do what is given; all other methods are as before. -/
def calling (host : Host σ) (naming : Ident → Ident) (calls : EntityCalls σ) : Host σ :=
  { host with
    methods := fun name args =>
      match args, host.owner? naming name with
      | [arg], some entity => do return (← calls entity arg).getD .nothing
      | args, _ => host.methods name args }

/-- The methods that read entities are what is given. -/
def nested (host : Host σ) (reads : EntityReads σ) : Host σ := host.calling Naming.getMethod reads

/-- Runs the method that reads an entity, once. -/
def readOnce (host : Host σ) (reads : EntityReads σ) : EntityReads σ := fun entity id =>
  (Generated.Get.method host.runtime entity).run (host.nested reads).machine (some .repository) [id]

/-- Runs the method that stores an entity, once. -/
def putOnce (host : Host σ) (puts : EntityCalls σ) : EntityCalls σ := fun entity value =>
  (Generated.Put.method entity).run (host.calling Naming.putMethod puts).machine (some .repository)
    [value]

/-- Stores an entity. Calls may nest to a depth; `cut` is what happens beyond it. -/
def putWithin (host : Host σ) (cut : EntityCalls σ) : Nat → EntityCalls σ
  | 0 => cut
  | depth + 1 => host.putOnce (host.putWithin cut depth)

/-- Reads an entity. Calls may nest to a depth; `cut` is what happens beyond it. -/
def readWithin (host : Host σ) (cut : EntityReads σ) : Nat → EntityReads σ
  | 0 => cut
  | depth + 1 => host.readOnce (host.readWithin cut depth)

end Host
end EntityGen
