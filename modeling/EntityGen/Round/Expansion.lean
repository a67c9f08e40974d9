import EntityGen.Round.Basic

/-! A module with its specs expanded. Each spec gives way to the entity that is generated for it,
or to nothing if there is none; the store module is the last item of the root, and what went wrong
stands behind it as errors for the compiler. -/
namespace EntityGen

/-- Units that wait to be put in place. Entities are found by the struct that declares them. -/
structure Buffer where
  entities : List ((ModulePath × Ident) × Code) := []
  store : List Code := []
  deriving DecidableEq, Repr

namespace Buffer

/-- An entity takes the place of one that waits for the same struct. -/
def add (buffer : Buffer) (unit : GeneratedUnit) : Buffer :=
  match unit.placement with
  | .entity module spec =>
    let others := buffer.entities.filter fun (key, _) => key != (module, spec)
    { buffer with entities := others ++ [((module, spec), unit.code)] }
  | .store => { buffer with store := buffer.store ++ [unit.code] }

def take (buffer : Buffer) (module : ModulePath) (spec : Ident) : Option Code × Buffer :=
  match buffer.entities.find? fun (key, _) => key == (module, spec) with
  | some (_, code) =>
    let others := buffer.entities.filter fun (key, _) => key != (module, spec)
    (some code, { buffer with entities := others })
  | none => (none, buffer)

def sink : Sink Buffer := fun unit buffer => (buffer.add unit, none)

end Buffer

namespace Expansion

mutual

/-- What an item of the module at `path` becomes. -/
def spliceItem (path : ModulePath) : Item → Buffer → List Item × Buffer
  | .struct decl, buffer =>
    if decl.attrs.any Attribute.isSpec then
      match buffer.take path decl.name with
      | (some code, rest) => ([.other none code], rest)
      | (none, rest) => ([], rest)
    else ([.struct decl], buffer)
  | .enum decl, buffer =>
    if decl.attrs.any Attribute.isSpec then ([], buffer) else ([.enum decl], buffer)
  | .module head none, buffer => ([.module head none], buffer)
  | .module head (some items), buffer =>
    let (items, rest) := spliceItems (path ++ [head.name]) items buffer
    ([.module head (some items)], rest)
  | .other name code, buffer => ([.other name code], buffer)

def spliceItems (path : ModulePath) : List Item → Buffer → List Item × Buffer
  | [], buffer => ([], buffer)
  | item :: rest, buffer =>
    let (first, buffer) := spliceItem path item buffer
    let (others, buffer) := spliceItems path rest buffer
    (first ++ others, buffer)

end

def storeModule (store : Ident) (units : List Code) : Item :=
  .module { attrs := [], vis := [.plain "pub"], marker := [], name := store, namePos := .none }
    (some (units.map (.other none)))

end Expansion

inductive ExpansionError where
  | badName (bad : BadName)
  | unreadable (fault : Fault)
  deriving DecidableEq, Repr

def ExpansionError.message : ExpansionError → String
  | badName bad => bad.message
  | unreadable fault => fault.message

structure Expansion where
  head : ModuleHead
  items : List Item
  diagnostics : List Diagnostic

namespace Expansion

def ofModule (settings : Settings) (head : ModuleHead) (items : List Item) :
    Except ExpansionError Expansion := do
  let round ← (Round.run settings items Buffer.sink {}).mapError .badName
  let (items, rest) := spliceItems [] items round.sink
  discard <| (Item.listOfCode rest.store.flatten).mapError .unreadable
  let store := if rest.store.isEmpty then [] else [storeModule settings.store rest.store]
  return ⟨head, items ++ store, round.reports.diagnostics⟩

def code (expansion : Expansion) : Code :=
  expansion.head.around (Item.codes expansion.items) ++
    expansion.diagnostics.flatMap Diagnostic.compileError

def bodiless : Code := Code.compileError "#[entity_module] needs an inline module body"

end Expansion
end EntityGen
