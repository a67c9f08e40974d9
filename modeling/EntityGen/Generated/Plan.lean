import EntityGen.Generated.Entity
import EntityGen.Generated.EntityRef
import EntityGen.Generated.Interfaces

/-! What is generated for the entities of a round, part by part. The methods of the store side are
named after the types of entities, so that no part of it can be generated if two types share the
names of their methods. -/
namespace EntityGen

/-- A name that would be declared twice. -/
inductive Clash where
  /-- The types `first` and `second` have the same method. -/
  | accessor (part : Part) (method first second : String) (pos : Pos)
  /-- The root module has an item with the name of the store module. -/
  | storeModule (part : Part) (name : String) (pos : Pos)
  deriving DecidableEq, Repr

namespace Clash

def part : Clash → Part
  | accessor part .. => part
  | storeModule part .. => part

def pos : Clash → Pos
  | accessor _ _ _ _ pos => pos
  | storeModule _ _ pos => pos

def message : Clash → String
  | accessor _ method first second _ =>
    "entities `" ++ first ++ "` and `" ++ second ++ "` both generate `" ++ method ++ "`"
  | storeModule _ name _ => "cannot generate module `" ++ name ++
      "`: an item with that name already exists in the annotated module"

end Clash

/-- The first entity whose methods are named as those of an earlier one, after that one. -/
def sharedAccessor? (earlier : List Entity) : List Entity → Option (Entity × Entity)
  | [] => none
  | entity :: rest =>
    match earlier.find? fun first =>
        Naming.getMethod first.name == Naming.getMethod entity.name with
    | some first => some (first, entity)
    | none => sharedAccessor? (earlier ++ [entity]) rest

/-- Why a part cannot be generated. -/
inductive PartError where
  | badName (bad : BadName)
  | clash (clash : Clash)
  deriving DecidableEq, Repr

namespace Part
open Generated

def checkAccessors (part : Part) (entities : List Entity) : Except PartError Unit :=
  match sharedAccessor? [] entities with
  | none => .ok ()
  | some (first, second) =>
    .error (.clash (.accessor part (Naming.getMethod second.name).text first.type.text
      second.type.text second.spec.pos))

/-- The types of one part, in the order in which they are emitted. -/
def decls (part : Part) (runtime : Path) (entities : List Entity) :
    Except PartError (List TypeDecl) := do
  if part.inStore then part.checkAccessors entities
  match part with
  | entity => return entities.map fun entity => entity.typeDecl runtime
  | store => return [← (MemoryStore.typeDecl runtime entities).mapError .badName]
  | repository => return [Repository.typeDecl runtime entities, RepositoryBuilder.typeDecl]
  | storeInterfaces =>
    return [← (Interfaces.storeReader runtime entities).mapError .badName,
      ← (Interfaces.storeWriter runtime entities).mapError .badName]
  | repositoryInterfaces =>
    return [EntityRef.typeDecl runtime entities, Interfaces.repositoryReader runtime entities,
      Interfaces.repositoryWriter entities]

end Part
end EntityGen
