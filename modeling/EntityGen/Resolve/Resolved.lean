import EntityGen.Resolve.Container
import EntityGen.Resolve.Table

/-! What a declared type holds. A name in the table is an entity; containers are taken apart;
other types with arguments show what their arguments hold, but are not walked. -/
namespace EntityGen

inductive ResolvedType where
  /-- A value that is copied as a whole. -/
  | leaf (ty : Ty)
  | entity (entity : EntityType)
  | list (kind : ListKind) (elem : ResolvedType)
  | map (kind : MapKind) (key value : ResolvedType)
  /-- Any other type with arguments; `raw` is its path without the last of them. -/
  | other (raw : Path) (args : List ResolvedType)

namespace ResolvedType

/-- Entities stand where containers are walked. -/
def holdsEntities : ResolvedType → Bool
  | leaf _ => false
  | entity _ => true
  | list _ elem => elem.holdsEntities
  | map _ key value => key.holdsEntities || value.holdsEntities
  | other _ _ => false

mutual

/-- An entity stands anywhere in the resolved form. -/
def mentionsEntity : ResolvedType → Bool
  | leaf _ => false
  | entity _ => true
  | list _ elem => elem.mentionsEntity
  | map _ key value => key.mentionsEntity || value.mentionsEntity
  | other _ args => anyMentions args

def anyMentions : List ResolvedType → Bool
  | [] => false
  | arg :: rest => arg.mentionsEntity || anyMentions rest

end

end ResolvedType

/-- A path that is one name without arguments and without a double colon in front. -/
def Path.bare? (path : Path) : Option Ident :=
  match path with
  | ⟨false, [.mk name .none]⟩ => some name
  | _ => none

def Path.withoutLastArgs (path : Path) : Path :=
  match path.segments.getLast? with
  | some last => { path with segments := path.segments.dropLast ++ [.bare last.name] }
  | none => path

namespace EntityTable

/-- The resolved form of a path whose last segment has the type arguments `args`. -/
def resolvePath (table : EntityTable) (path : Path) (args : List ResolvedType) : ResolvedType :=
  match path.bare?.bind fun name => table.lookup name.text with
  | some entity => .entity entity
  | none =>
    match args, Container.ofPath? path with
    | [], _ => .leaf path.ty
    | [elem], some (.list kind) => .list kind elem
    | [key, value], some (.map kind) => .map kind key value
    | args, _ => .other path.withoutLastArgs args

mutual

def resolve (table : EntityTable) : Ty → ResolvedType
  | .path leading segments => table.resolvePath ⟨leading, segments⟩ (resolveLast table segments)
  | .paren inner => resolve table inner
  | .group inner => resolve table inner
  | .inferred => .leaf .inferred
  | .implTrait pieces => .leaf (.implTrait pieces)
  | .invocation code => .leaf (.invocation code)
  | .composite pieces => .leaf (.composite pieces)

def resolveLast (table : EntityTable) : List Segment → List ResolvedType
  | [] => []
  | [segment] => resolveSegment table segment
  | _ :: rest => resolveLast table rest

def resolveSegment (table : EntityTable) : Segment → List ResolvedType
  | .mk _ args => resolveArgs table args

def resolveArgs (table : EntityTable) : Args → List ResolvedType
  | .none => []
  | .angle _ args _ => resolveTypes table args

def resolveTypes (table : EntityTable) : List Arg → List ResolvedType
  | [] => []
  | .ty inner :: rest => resolve table inner :: resolveTypes table rest
  | .lifetime _ :: rest => resolveTypes table rest
  | .other _ :: rest => resolveTypes table rest

end

end EntityTable
end EntityGen
