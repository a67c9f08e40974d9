import EntityGen.Proofs.Generated.ReadCalls
import EntityGen.Proofs.Reading.Recursion
import EntityGen.Semantics.Nesting

/-! Reads come to an end, whatever is stored. A method that reads an entity calls others of its kind
only for what it holds directly, so that calls nest no deeper than types do by direct properties. -/
namespace EntityGen

theorem Naming.getMethod_ne_readMethod (x y : Ident) : getMethod x ≠ readMethod y := by
  intro same
  have first := congrArg (fun name : Ident => name.name.toList.head?) same
  simp [getMethod, readMethod, plain] at first

theorem Naming.getMethod_ne_insertMethod (x : Ident) (container : Container) :
    getMethod x ≠ plain container.insertMethod := by
  intro same
  have first := congrArg (fun name : Ident => name.name.toList.head?) same
  obtain kind | kind := container <;> cases kind <;>
    simp [getMethod, plain, Container.insertMethod] at first

namespace Host

variable {σ : Type} {host : Host σ} {reads others : EntityReads σ} {entity : Entity}

theorem of_owner? {naming : Ident → Ident} {name : Ident}
    (found : host.owner? naming name = some entity) : naming entity.name = name ∧
      ∀ other ∈ host.types, naming other.name = name → other = entity := by
  unfold owner? at found
  split at found
  next first only =>
    obtain rfl : first = entity := Option.some.inj found
    have isOnly : ∀ other, (other ∈ host.types ∧ naming other.name = name) ↔
        other = first := by
      intro other
      rw [← List.mem_singleton (b := first), ← only, List.mem_filter, beq_iff_eq]
    exact ⟨((isOnly first).mpr rfl).2, fun other member same => (isOnly other).mp ⟨member, same⟩⟩
  next => cases found

theorem nested_methods_congr {name : Ident} {args : List Operand}
    (same : ∀ id, args = [id] → ∀ other, host.owner? Naming.getMethod name = some other →
      reads other = others other) :
    (host.nested others).methods name args = (host.nested reads).methods name args := by
  simp only [nested, calling]
  split
  next id other found => simp only [same id rfl other found]
  next => rfl

theorem nested_call_congr {target : Operand} {name : Ident} {args : List Operand}
    (same : (host.nested others).methods name args = (host.nested reads).methods name args) :
    (host.nested others).call target name args = (host.nested reads).call target name args := by
  cases target with
  | repository => simp only [call, same]
  | datum => cases args <;> rfl
  | _ => rfl

/-- Of nested reads, only those matter of what a type holds directly. -/
theorem agrees_nested (sound : host.schema.Sound) (found : host.entity? entity.type = some entity)
    (same : ∀ other ∈ host.types, host.schema.Embeds entity.type other.type →
      reads other = others other) :
    (host.nested reads).machine.Agrees (host.nested others).call (Generated.Get.Call entity) := by
  intro receiver method args call target given lengths
  refine nested_call_congr (nested_methods_congr ?_)
  rintro id rfl other isRead
  obtain ⟨name, only⟩ := of_owner? isRead
  cases call with
  | own => exact (Naming.getMethod_ne_readMethod _ _ name).elim
  | direct member isEntity =>
    rename_i property type _
    have embeds : host.schema.Embeds entity.type type := by
      rw [Schema.Embeds, properties_schema found]
      exact List.mem_map.mpr ⟨property, member, isEntity⟩
    obtain ⟨inner, inside, isType⟩ := entity?_of_known (sound.known_of_embeds embeds)
    have isType := List.find?_some (p := fun entity : Entity => entity.type == type) isType
    obtain rfl := beq_iff_eq.mp isType
    obtain rfl := only inner inside rfl
    exact same inner inside embeds
  | getter => cases lengths
  | loop call =>
    cases call with
    | read => exact (Naming.getMethod_ne_readMethod _ _ name).elim
    | iterate => cases lengths
    | insert copy container => exact (Naming.getMethod_ne_insertMethod _ container name).elim

theorem readOnce_congr (sound : host.schema.Sound)
    (found : host.entity? entity.type = some entity)
    (same : ∀ other ∈ host.types, host.schema.Embeds entity.type other.type →
      reads other = others other) : host.readOnce others entity = host.readOnce reads entity := by
  funext id
  have only : ∀ body ∈ (Generated.Get.method host.runtime entity).body,
      Body.All (Node.CallsOnly (Generated.Get.Call entity)) body := by
    rintro _ ⟨⟩
    exact fun node member => (Generated.Get.fetches_body host.runtime entity node member).1
  exact Method.run_calling (agrees_nested sound found same) only (some .repository) [id]

end Host

/-- A chain of direct properties that begins with a type: each type below holds the next one. -/
def Schema.Chain (schema : Schema) (type : EntityType) (below : List EntityType) : Prop :=
  List.IsChain schema.Embeds (type :: below)

namespace Schema

variable {schema : Schema} {outer inner type : EntityType} {below : List EntityType}

theorem Chain.cons (embeds : schema.Embeds outer inner) (chain : schema.Chain inner below) :
    schema.Chain outer (inner :: below) :=
  List.isChain_cons_cons.mpr ⟨embeds, chain⟩

/-- No type stands twice in a chain, so that there are no more than the schema has. -/
theorem Sound.chain_lt (sound : schema.Sound) (known : schema.Known type)
    (chain : schema.Chain type below) : below.length < schema.length := by
  have above : (type :: below).Pairwise (Relation.TransGen schema.Embeds) :=
    List.isChain_iff_pairwise.mp (chain.imp fun _ _ => .single)
  have nodup : (type :: below).Nodup := by
    refine above.imp fun {first later} step same => ?_
    rw [same] at step
    exact sound.acyclic _ step
  have inside : type :: below ⊆ schema.map EntitySchema.type := by
    intro other member
    rcases List.mem_cons.mp member with rfl | later
    · exact known_iff.mp known
    · obtain ⟨middle, -, embeds⟩ :=
        Relation.TransGen.tail'_iff.mp (List.rel_of_pairwise_cons above later)
      exact known_iff.mp (sound.known_of_embeds embeds)
  have bound := nodup.length_le_of_subset inside
  rwa [List.length_cons, List.length_map] at bound

end Schema

namespace Host

variable {σ : Type} {host : Host σ} {entity : Entity} {depth : Nat}

/-- The chains of direct properties from the type of an entity are shorter than this. -/
def Shallow (host : Host σ) (entity : Entity) (depth : Nat) : Prop :=
  ∀ below, host.schema.Chain entity.type below → below.length < depth

theorem Shallow.inner {other : Entity} (shallow : host.Shallow entity (depth + 1))
    (embeds : host.schema.Embeds entity.type other.type) : host.Shallow other depth :=
  fun _ chain => Nat.lt_of_succ_lt_succ (shallow _ (chain.cons embeds))

theorem Shallow.pos (shallow : host.Shallow entity depth) : 0 < depth :=
  shallow [] (List.isChain_singleton _)

/-- If depths are enough, it does not matter what they are and what would happen beyond them. -/
theorem readWithin_congr (sound : host.schema.Sound)
    (found : ∀ entity ∈ host.types, host.entity? entity.type = some entity)
    {first second : EntityReads σ} (member : entity ∈ host.types)
    (shallow : host.Shallow entity depth) (enough : host.Shallow entity other) :
    host.readWithin first depth entity = host.readWithin second other entity := by
  induction depth generalizing entity other with
  | zero => exact absurd shallow.pos (Nat.lt_irrefl 0)
  | succ depth ih =>
    obtain ⟨other, rfl⟩ := Nat.exists_eq_succ_of_ne_zero (Nat.ne_of_gt enough.pos)
    exact readOnce_congr sound (found entity member) fun inner inside embeds =>
      (ih inside (shallow.inner embeds) (enough.inner embeds)).symm

/-- What happens beyond a depth may itself be one call more. -/
theorem readWithin_readOnce (cut : EntityReads σ) (depth : Nat) :
    host.readWithin (host.readOnce cut) depth = host.readWithin cut (depth + 1) := by
  induction depth with
  | zero => rfl
  | succ depth ih => rw [readWithin, ih]; rfl

end Host

/-- An answer, whatever is stored: reads go no deeper than the chains of direct properties. -/
theorem Reading.getWithin_isSome {reading : Reading}
    (short : ∀ below, reading.schema.Chain slot.type below → below.length < depth) :
    (reading.getWithin depth slot).isSome := by
  induction depth generalizing slot with
  | zero => exact absurd (short [] (List.isChain_singleton _)) (Nat.lt_irrefl 0)
  | succ depth ih =>
    rw [Option.isSome_iff_ne_none]
    intro fails
    rw [getWithin] at fails
    split at fails
    next => cases fails
    next cached stored =>
      obtain ⟨held, direct, none⟩ := Reading.current_eq_none (Option.map_eq_none_iff.mp fails)
      have inner : (reading.getWithin depth (reading.schema.slot held)).isSome :=
        ih fun below chain => Nat.lt_of_succ_lt_succ (short _ (chain.cons direct.embeds))
      rw [none] at inner
      cases inner

/-- What the method that reads an entity calls on the repository: methods of its own kind only for
entities that are held directly, and none of these in a loop. Whatever stands in a container is
looked up, by methods that call nothing on the repository. -/
structure Entity.CallsApart (runtime : Path) (entity : Entity) : Prop where
  calls : ∀ method args,
    .expr (.call Expr.self method args) ∈ Body.nodes (Generated.Get.body runtime entity) →
      method = Naming.readMethod entity.name ∨
      (∃ property ∈ entity.properties, ∃ target, property.resolved = .entity target ∧
        method = Naming.getMethod target.name) ∨
      ∃ property ∈ entity.properties, (∀ target, property.resolved ≠ .entity target) ∧
        ∃ target ∈ property.resolved.targets, method = Naming.readMethod target.name
  loops : ∀ binding source body,
    .stmt (.each binding source body) ∈ Body.nodes (Generated.Get.body runtime entity) →
      ∀ method args, .expr (.call Expr.self method args) ∈ Body.nodes body →
        ∃ property ∈ entity.properties, (∀ target, property.resolved ≠ .entity target) ∧
          ∃ target ∈ property.resolved.targets, method = Naming.readMethod target.name
  reads : ∀ body ∈ (Generated.Repository.read runtime entity).body, ∀ receiver method args,
    .expr (.call receiver method args) ∈ Body.nodes body → receiver ≠ Expr.self

namespace Generated.Get

theorem LoopCall.of_self {properties : List Property} {receiver : Expr} {method : Ident}
    {args : List Expr} (call : LoopCall properties receiver method args)
    (isSelf : receiver = Expr.self) :
    ∃ property ∈ properties, (∀ target, property.resolved ≠ .entity target) ∧
      ∃ target ∈ property.resolved.targets, method = Naming.readMethod target.name := by
  cases call with
  | read member container inside => exact ⟨_, member, container, _, inside, rfl⟩
  | iterate other => exact (other isSelf).elim
  | insert => cases isSelf

theorem callsApart (runtime : Path) (entity : Entity) : entity.CallsApart runtime where
  calls := by
    intro method args called
    have call : Call entity Expr.self method args := (fetches_body runtime entity _ called).1
    generalize isSelf : Expr.self = receiver at call
    cases call with
    | own => exact .inl rfl
    | direct member isEntity => exact .inr (.inl ⟨_, member, _, isEntity, rfl⟩)
    | getter => cases isSelf
    | loop call => exact .inr (.inr (call.of_self isSelf.symm))
  loops := by
    intro binding source body looped method args called
    have call : LoopCall entity.properties Expr.self method args :=
      (fetches_body runtime entity _ looped).2 _ called
    exact call.of_self rfl
  reads := fun body isBody _ _ _ called => calls_read runtime entity body isBody _ called

end Generated.Get

namespace Host

variable {σ : Type}

/-- Reads come to an end in whatever world the stores answer. The methods that read entities have a
meaning, which each of them reaches in calls that nest no deeper than the chains of direct
properties below its type, whatever would happen beyond. -/
theorem reads_end {specs : List Spec} (host : Host σ)
    (types : host.types = (Resolution.ofSpecs specs).entities)
    (acyclic : ∀ type, ¬Relation.TransGen host.schema.Embeds type type) :
    (∀ entity ∈ host.types, entity.CallsApart host.runtime ∧
      host.Shallow entity host.types.length) ∧
    (∃ reads : EntityReads σ, ∀ entity ∈ host.types,
      reads entity = host.readOnce reads entity ∧
      ∀ depth, host.Shallow entity depth →
        ∀ cut, host.readWithin cut depth entity = reads entity) ∧
    ∀ reading : Reading, reading.schema = host.schema → ∀ entity ∈ host.types,
      ∀ depth, host.Shallow entity depth → ∀ id,
        (reading.getWithin depth ⟨entity.type, id⟩).isSome := by
  have sound : host.schema.Sound := by
    rw [schema, types] at acyclic ⊢
    exact Resolution.sound_schema specs acyclic
  have found : ∀ entity ∈ host.types, host.entity? entity.type = some entity :=
    fun entity member => entity?_of_mem types (types ▸ member)
  have shallow : ∀ entity ∈ host.types, host.Shallow entity host.types.length := by
    intro entity member below chain
    have known : host.schema.Known entity.type :=
      Schema.known_iff.mpr (List.mem_map_of_mem (List.mem_map_of_mem member))
    simpa [schema] using sound.chain_lt known chain
  refine ⟨fun entity member => ⟨Generated.Get.callsApart host.runtime entity,
    shallow entity member⟩, ⟨host.readWithin (fun _ _ => pure none) host.types.length, ?_⟩, ?_⟩
  · intro entity member
    constructor
    · -- One call more on the outside is one call more beyond the depth.
      rw [← readWithin, ← readWithin_readOnce]
      exact readWithin_congr sound found member (shallow entity member) (shallow entity member)
    · intro depth enough cut
      exact readWithin_congr sound found member enough (shallow entity member)
  · intro reading same entity member depth enough id
    exact Reading.getWithin_isSome (same ▸ enough)

end Host

/-! A book has an author, who lists all books, so that stored entities refer to each other in
cycles. -/
namespace Shelf

open Library (number named field spec)

def specs : List Spec :=
  [spec "Author" [field "id" number, field "books" (named "Vec" [named "Book" []])] ⟨0, by decide⟩,
    spec "Book" [field "id" number, field "author" (named "Author" [])] ⟨0, by decide⟩]

def author : Entity := (Resolution.ofSpecs specs).entities.get ⟨0, by decide⟩

def book : Entity := (Resolution.ofSpecs specs).entities.get ⟨1, by decide⟩

def bookValue (id author : Int) : Value := .seq [.int id, .seq [.int author, .seq []]]

/-- Each id that is asked for has an author, who lists one book, and a book. -/
def answers : Answers := fun name id =>
  match id with
  | .int n =>
    if name = Naming.readMethod author.name then
      some (author.type, ⟨0, .seq [.int n, .seq [bookValue (n + 1) n]]⟩)
    else if name = Naming.readMethod book.name then some (book.type, ⟨1, bookValue n (n - 1)⟩)
    else none
  | _ => none

def host : Host Unit :=
  ⟨⟨false, []⟩, (Resolution.ofSpecs specs).entities, answers.methods, pure 5,
    fun _ => Iteration.sorted⟩

/-- Only a book holds something directly. -/
theorem embeds_iff {outer inner : EntityType} :
    host.schema.Embeds outer inner ↔ outer = book.type ∧ inner = author.type := by
  constructor
  · intro embeds
    obtain ⟨entity, found, member⟩ := Schema.mem_properties embeds
    obtain ⟨inside, rfl⟩ := Schema.mem_of_find? found
    have cases : entity = author.schema ∨ entity = book.schema := by
      have all : host.schema = [author.schema, book.schema] := rfl
      simpa [all] using inside
    rcases cases with rfl | rfl
    · have properties : author.schema.properties =
          [.leaf number, .list .vec (.entity book.type)] := rfl
      simp [properties] at member
    · have properties : book.schema.properties = [.leaf number, .entity author.type] := rfl
      exact ⟨rfl, by simpa [properties] using member⟩
  · rintro ⟨rfl, rfl⟩
    have properties : host.schema.properties book.type = [.leaf number, .entity author.type] := rfl
    simp [Schema.Embeds, properties]

theorem reads_end_shelf :
    (∀ type, ¬Relation.TransGen host.schema.Embeds type type) ∧
      ∃ reads : EntityReads Unit, ∀ cut, host.readWithin cut 1 author = reads author ∧
        host.readWithin cut 2 book = reads book := by
  have acyclic : ∀ type, ¬Relation.TransGen host.schema.Embeds type type :=
    Schema.acyclic_of_rank (fun type => if type = book.type then 1 else 0) fun outer inner embeds => by
      obtain ⟨rfl, rfl⟩ := embeds_iff.mp embeds
      decide
  have short : host.Shallow author 1
    | [], _ => Nat.one_pos
    | inner :: _, chain => by
      obtain ⟨isBook, -⟩ := embeds_iff.mp (List.isChain_cons_cons.mp chain).1
      exact absurd isBook (by decide)
  have shallow : host.Shallow book 2
    | [], _ => Nat.two_pos
    | inner :: below, chain => by
      obtain ⟨embeds, chain⟩ := List.isChain_cons_cons.mp chain
      obtain ⟨-, rfl⟩ := embeds_iff.mp embeds
      exact Nat.succ_lt_succ (short below chain)
  have types : host.types = (Resolution.ofSpecs specs).entities := rfl
  obtain ⟨-, ⟨reads, ends⟩, -⟩ := host.reads_end types acyclic
  have isAuthor : author ∈ host.types := List.get_mem _ _
  have isBook : book ∈ host.types := List.get_mem _ _
  exact ⟨acyclic, reads, fun cut => ⟨(ends author isAuthor).2 1 short cut,
    (ends book isBook).2 2 shallow cut⟩⟩

/-- The author that is listed with the book is the stored one, as it stands in the stores. -/
example : (answers.reading host.schema host.iteration).getWithin 2 ⟨book.type, .int 2⟩ =
    some (some (.rebuilt (.seq [.int 2, .seq [.int 1, .seq [bookValue 2 1]]]))) := by
  decide +kernel

end Shelf
end EntityGen
