import EntityGen.Round.Diagnostic
import EntityGen.Settings
import EntityGen.Spec.Intake

/-! A round: from the items of a root module to the units for its entities. What a round offers is
settled before a sink sees any of it; a refused unit is reported and the round goes on. -/
namespace EntityGen

/-- What receives units, one after the other. It may refuse a unit. -/
abbrev Sink (σ : Type) := GeneratedUnit → σ → σ × Option Refusal

namespace Round

/-- The clash of the store module with the first item of the root module that has its name. -/
def storeClash? (settings : Settings) (items : List Item) : Option Clash :=
  (items.findSome? fun item => item.declared?.filter fun (name, _) => name == settings.store).map
    fun (_, pos) => .storeModule .store settings.store.text pos

inductive Event where
  | clash (clash : Clash)
  | offer (unit : GeneratedUnit)
  deriving DecidableEq, Repr

def eventsOf (runtime : Path) (entities : List Entity) (part : Part) :
    Except BadName (List Event) :=
  match part.decls runtime entities with
  | .ok decls => .ok (decls.map fun decl => .offer decl.unit)
  | .error (.clash clash) => .ok [.clash clash]
  | .error (.badName bad) => .error bad

/-- The events of all parts. The store side is left out if there is nothing to store or no place
for it. -/
def events (runtime : Path) (entities : List Entity) (blocked : Bool) :
    Except BadName (List Event) := do
  let parts := Part.all.filter fun part => !(part.inStore && (entities.isEmpty || blocked))
  return (← parts.mapM (eventsOf runtime entities)).flatten

def specName? (entities : List Entity) : Placement → Option String
  | .store => none
  | .entity module ident =>
    (entities.find? fun entity => entity.spec.module == module && entity.spec.ident == ident).map
      fun entity => entity.spec.name

structure State (σ : Type) where
  reports : Reports
  /-- How many units were accepted. -/
  accepted : Nat
  sink : σ

def step (sink : Sink σ) (entities : List Entity) (state : State σ) : Event → State σ
  | .clash clash => { state with reports := state.reports.addClash clash }
  | .offer unit =>
    match sink unit state.sink with
    | (next, none) => { state with accepted := state.accepted + 1, sink := next }
    | (next, some refusal) =>
      let diagnostic := Diagnostic.refused refusal (specName? entities unit.placement)
      { state with reports := state.reports.add diagnostic, sink := next }

end Round

structure Round (σ : Type) where
  entities : List Entity
  reports : Reports
  accepted : Nat
  sink : σ

def Round.run (settings : Settings) (items : List Item) (sink : Sink σ) (start : σ) :
    Except BadName (Round σ) := do
  let intake := Intake.ofItems [] items
  let resolution := Resolution.ofSpecs intake.specs
  let clash := storeClash? settings items
  let found : Reports := { warnings := intake.warnings }
  let rejected := found.addAll ((intake.errors ++ resolution.errors).map .spec)
  let reports := (clash.map rejected.addClash).getD rejected
  let events ← events settings.runtime resolution.entities clash.isSome
  let final := events.foldl (step sink resolution.entities) ⟨reports, 0, start⟩
  return ⟨resolution.entities, final.reports, final.accepted, final.sink⟩

end EntityGen
