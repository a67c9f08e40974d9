import EntityGen.Proofs.Entity.Held
import EntityGen.Proofs.Iteration
import EntityGen.Proofs.Storing.DirtySet

/-! What a put does is to write the entities of one listing, one after the other, and to report
them. The listing holds what is reached from the entity and does not depend on the world. -/
namespace EntityGen

namespace Schema

mutual

/-- The entities in a value: each before those that it holds, in the order of declaration and of
iteration, keys before values. -/
def listing (schema : Schema) (iteration : Iteration) : ResolvedType → Value → List EntityValue
  | .entity type, .seq fields =>
    ⟨type, .seq fields⟩ :: (listFields schema iteration (schema.properties type) fields).flatten
  | .entity type, value => [⟨type, value⟩]
  | .list _ elem, .seq items => (listItems schema iteration elem items).flatten
  | .map kind key value, .seq entries =>
    (iteration.arrange kind entries (listEntries schema iteration key value entries)).flatten
  | _, _ => []

def listFields (schema : Schema) (iteration : Iteration) :
    List ResolvedType → List Value → List (List EntityValue)
  | type :: types, field :: fields =>
    listing schema (iteration.within 0) type field ::
      listFields schema (iteration.within 1) types fields
  | _, _ => []

def listItems (schema : Schema) (iteration : Iteration) (type : ResolvedType) :
    List Value → List (List EntityValue)
  | [] => []
  | item :: rest =>
    listing schema (iteration.within 0) type item ::
      listItems schema (iteration.within 1) type rest

def listEntries (schema : Schema) (iteration : Iteration) (keyType valueType : ResolvedType) :
    List Value → List (List EntityValue)
  | [] => []
  | .pair key value :: rest =>
    (listing schema (iteration.within 0) keyType key ++
      listing schema (iteration.within 1) valueType value) ::
      listEntries schema (iteration.within 2) keyType valueType rest
  | _ :: rest => [] :: listEntries schema (iteration.within 2) keyType valueType rest

end

end Schema

def World.putAll (schema : Schema) (stores : List Nat) (entities : List EntityValue)
    (world : World) : World :=
  entities.foldl (fun world entity => world.put schema stores entity) world

namespace Storing

def writeAll (storing : Storing) (entities : List EntityValue) : Writing := fun world =>
  (DirtySet.merge storing.schema [] entities,
    world.putAll storing.schema storing.writers entities)

theorem write_eq (storing : Storing) (entity : EntityValue) :
    storing.write entity = storing.writeAll [entity] := rfl

theorem writeAll_append (storing : Storing) (first rest : List EntityValue) :
    (do
      let before ← storing.writeAll first
      let after ← storing.writeAll rest
      return DirtySet.merge storing.schema before after) = storing.writeAll (first ++ rest) := by
  funext world
  have dirty : DirtySet.merge storing.schema (DirtySet.merge storing.schema [] first)
      (DirtySet.merge storing.schema [] rest) = DirtySet.merge storing.schema [] (first ++ rest) := by
    rw [DirtySet.merge_merge_nil, DirtySet.merge_append]
  have after : (world.putAll storing.schema storing.writers first).putAll storing.schema
      storing.writers rest = world.putAll storing.schema storing.writers (first ++ rest) := by
    simp [World.putAll]
  exact Prod.ext dirty after

theorem all_writeAll (storing : Storing) (listings : List (List EntityValue)) :
    storing.all (listings.map storing.writeAll) = storing.writeAll listings.flatten := by
  induction listings with
  | nil => rfl
  | cons first rest ih =>
    rw [List.map_cons, all, ih, writeAll_append, List.flatten_cons]

mutual

/-- A put is the writing of its listing. -/
theorem put_eq (storing : Storing) : (type : ResolvedType) → (value : Value) →
    storing.put type value =
      storing.writeAll (storing.schema.listing storing.iteration type value)
  | .entity type, .seq fields => by
    rw [put, putFields_eq storing, all_writeAll, write_eq, writeAll_append]
    rfl
  | .list kind elem, .seq items => by
    rw [put, putItems_eq storing, all_writeAll, Schema.listing]
  | .map kind keyType valueType, .seq entries => by
    rw [put, putEntries_eq storing, Iteration.arrange_map, all_writeAll, Schema.listing]
  | .entity _, .null | .entity _, .bool _ | .entity _, .int _ | .entity _, .text _
  | .entity _, .pair _ _ | .list _ _, .null | .list _ _, .bool _ | .list _ _, .int _
  | .list _ _, .text _ | .list _ _, .pair _ _ | .map _ _ _, .null | .map _ _ _, .bool _
  | .map _ _ _, .int _ | .map _ _ _, .text _ | .map _ _ _, .pair _ _ => rfl
  | .leaf _, value => by cases value <;> rfl
  | .other _ _, value => by cases value <;> rfl

theorem putFields_eq (storing : Storing) : (types : List ResolvedType) → (fields : List Value) →
    storing.putFields types fields =
      (storing.schema.listFields storing.iteration types fields).map storing.writeAll
  | type :: types, field :: fields => by
    rw [putFields, put_eq (storing.within 0), putFields_eq (storing.within 1)]
    rfl
  | [], fields => by cases fields <;> rfl
  | _ :: _, [] => rfl

theorem putItems_eq (storing : Storing) (type : ResolvedType) : (items : List Value) →
    storing.putItems type items =
      (storing.schema.listItems storing.iteration type items).map storing.writeAll
  | [] => rfl
  | item :: rest => by
    rw [putItems, put_eq (storing.within 0), putItems_eq (storing.within 1)]
    rfl

theorem putEntries_eq (storing : Storing) (keyType valueType : ResolvedType) :
    (entries : List Value) → storing.putEntries keyType valueType entries =
      (storing.schema.listEntries storing.iteration keyType valueType entries).map storing.writeAll
  | [] => rfl
  | .pair key value :: rest => by
    have sides := all_writeAll storing
      [storing.schema.listing (storing.iteration.within 0) keyType key,
        storing.schema.listing (storing.iteration.within 1) valueType value]
    simp only [List.map_cons, List.map_nil, List.flatten_cons, List.flatten_nil,
      List.append_nil] at sides
    rw [putEntries, put_eq (storing.within 0), put_eq (storing.within 1),
      putEntries_eq (storing.within 2)]
    exact congrArg₂ List.cons sides rfl
  | .null :: rest | .bool _ :: rest | .int _ :: rest | .text _ :: rest | .seq _ :: rest =>
    congrArg₂ List.cons rfl (putEntries_eq (storing.within 2) keyType valueType rest)

end

end Storing
end EntityGen
