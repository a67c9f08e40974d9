import EntityGen.Proofs.Related
import EntityGen.Proofs.Resolve.Classification
import EntityGen.Proofs.Spec.Hidden

/-! Types that are spelled with and without raw names. An identifier is the same with the mark of a
raw name in front of it and without, but a name is looked up as it is written, and a container is
known by names without a mark. Two spellings of a type resolve to the same tree if and only if, at
each place, they are looked up alike. -/
namespace EntityGen

def Ident.unraw (x : Ident) : Ident := ⟨x.name, false⟩

def Token.unraw : Token → Token
  | .word x => .word x.unraw
  | token => token

mutual

def Ty.unraw : Ty → Ty
  | .path leading segments => .path leading (Segment.unrawAll segments)
  | .paren inner => .paren inner.unraw
  | .group inner => .group inner.unraw
  | .inferred => .inferred
  | .implTrait pieces => .implTrait (Piece.unrawAll pieces)
  | .invocation code => .invocation (code.map Token.unraw)
  | .composite pieces => .composite (Piece.unrawAll pieces)

def Segment.unraw : Segment → Segment
  | .mk name args => .mk name.unraw args.unraw

def Segment.unrawAll : List Segment → List Segment
  | [] => []
  | segment :: rest => segment.unraw :: Segment.unrawAll rest

def Args.unraw : Args → Args
  | .none => .none
  | .angle turbofish args trailing => .angle turbofish (Arg.unrawAll args) trailing

def Arg.unraw : Arg → Arg
  | .lifetime text => .lifetime text
  | .ty inner => .ty inner.unraw
  | .other pieces => .other (Piece.unrawAll pieces)

def Arg.unrawAll : List Arg → List Arg
  | [] => []
  | arg :: rest => arg.unraw :: Arg.unrawAll rest

def Piece.unraw : Piece → Piece
  | .token token => .token token.unraw
  | .ty inner => .ty inner.unraw

def Piece.unrawAll : List Piece → List Piece
  | [] => []
  | piece :: rest => piece.unraw :: Piece.unrawAll rest

end

def Path.unraw (path : Path) : Path := ⟨path.leading, Segment.unrawAll path.segments⟩

theorem Segment.unrawAll_eq_map (segments : List Segment) :
    unrawAll segments = segments.map unraw := by
  induction segments with
  | nil => rfl
  | cons segment rest ih => rw [unrawAll, ih, List.map_cons]

theorem Arg.unrawAll_eq_map (args : List Arg) : unrawAll args = args.map unraw := by
  induction args with
  | nil => rfl
  | cons arg rest ih => rw [unrawAll, ih, List.map_cons]

@[simp] theorem Args.types_unraw (args : Args) : args.unraw.types = args.types.map Ty.unraw := by
  cases args with
  | none => rfl
  | angle turbofish args trailing =>
    rw [unraw, types, types, Arg.unrawAll_eq_map, List.filterMap_map, List.map_filterMap]
    refine List.filterMap_congr fun arg _ => ?_
    cases arg <;> rfl

@[simp] theorem Path.typeArgs_unraw (path : Path) :
    path.unraw.typeArgs = path.typeArgs.map Ty.unraw := by
  obtain ⟨leading, segments⟩ := path
  rw [unraw, typeArgs, typeArgs, Segment.unrawAll_eq_map, List.getLast?_map]
  cases segments.getLast? with
  | none => rfl
  | some last =>
    obtain ⟨name, args⟩ := last
    exact args.types_unraw

theorem Path.withoutLastArgs_unraw (path : Path) :
    path.unraw.withoutLastArgs = path.withoutLastArgs.unraw := by
  obtain ⟨leading, segments⟩ := path
  rcases List.eq_nil_or_concat' segments with rfl | ⟨before, ⟨name, args⟩, rfl⟩
  · rfl
  · simp [unraw, withoutLastArgs, Segment.unrawAll_eq_map, Segment.bare, Segment.unraw, Args.unraw,
      Segment.name]

/-- A bare name is spelled as one. -/
theorem Path.eq_bare_of_unraw_eq {path other : Path} {x : Ident}
    (same : other.unraw = path.unraw) (bare : path = ⟨false, [.bare x]⟩) :
    ∃ y : Ident, other = ⟨false, [.bare y]⟩ := by
  subst bare
  obtain ⟨leading, segments⟩ := other
  obtain ⟨rfl, listed⟩ := Path.mk.inj same
  rw [Segment.unrawAll_eq_map] at listed
  obtain ⟨⟨y, args⟩, rfl, single⟩ := List.map_eq_singleton_iff.mp listed
  obtain ⟨-, plain⟩ := Segment.mk.inj single
  cases args with
  | none => exact ⟨y, rfl⟩
  | angle => cases plain

mutual

/-- A form that hides a type does so in all spellings. -/
theorem Ty.hidden?_unraw : (ty : Ty) → ty.unraw.hidden? = ty.hidden?
  | .path _ segments => Segment.hiddenIn?_unraw segments
  | .paren inner => Ty.hidden?_unraw inner
  | .group inner => Ty.hidden?_unraw inner
  | .inferred | .implTrait _ | .invocation _ => rfl
  | .composite pieces => Piece.hiddenIn?_unraw pieces

theorem Segment.hidden?_unraw : (segment : Segment) → segment.unraw.hidden? = segment.hidden?
  | .mk _ args => Args.hidden?_unraw args

theorem Segment.hiddenIn?_unraw : (segments : List Segment) →
    Segment.hiddenIn? (Segment.unrawAll segments) = Segment.hiddenIn? segments
  | [] => rfl
  | segment :: rest => by
    rw [Segment.unrawAll, Segment.hiddenIn?, Segment.hiddenIn?, Segment.hidden?_unraw segment,
      Segment.hiddenIn?_unraw rest]

theorem Args.hidden?_unraw : (args : Args) → args.unraw.hidden? = args.hidden?
  | .none => rfl
  | .angle _ args _ => Arg.hiddenIn?_unraw args

theorem Arg.hidden?_unraw : (arg : Arg) → arg.unraw.hidden? = arg.hidden?
  | .lifetime _ => rfl
  | .ty inner => Ty.hidden?_unraw inner
  | .other pieces => Piece.hiddenIn?_unraw pieces

theorem Arg.hiddenIn?_unraw : (args : List Arg) →
    Arg.hiddenIn? (Arg.unrawAll args) = Arg.hiddenIn? args
  | [] => rfl
  | arg :: rest => by
    rw [Arg.unrawAll, Arg.hiddenIn?, Arg.hiddenIn?, Arg.hidden?_unraw arg, Arg.hiddenIn?_unraw rest]

theorem Piece.hidden?_unraw : (piece : Piece) → piece.unraw.hidden? = piece.hidden?
  | .token _ => rfl
  | .ty inner => Ty.hidden?_unraw inner

theorem Piece.hiddenIn?_unraw : (pieces : List Piece) →
    Piece.hiddenIn? (Piece.unrawAll pieces) = Piece.hiddenIn? pieces
  | [] => rfl
  | piece :: rest => by
    rw [Piece.unrawAll, Piece.hiddenIn?, Piece.hiddenIn?, Piece.hidden?_unraw piece,
      Piece.hiddenIn?_unraw rest]

end

/-- The module of an entity may be spelled with raw names. Its own name is what it is known by. -/
def EntityType.unraw (entity : EntityType) : EntityType :=
  ⟨entity.module.map Ident.unraw, entity.name⟩

def EntityTable.unraw (table : EntityTable) : EntityTable := ⟨table.entries.map EntityType.unraw⟩

theorem EntityTable.lookup_unraw (table : EntityTable) (name : String) :
    table.unraw.lookup name = (table.lookup name).map EntityType.unraw := by
  rw [lookup, unraw, List.find?_map]
  rfl

namespace ResolvedType

mutual

def unraw : ResolvedType → ResolvedType
  | leaf ty => leaf ty.unraw
  | entity target => entity target.unraw
  | list kind elem => list kind elem.unraw
  | map kind key value => map kind key.unraw value.unraw
  | other raw args => other raw.unraw (unrawAll args)

def unrawAll : List ResolvedType → List ResolvedType
  | [] => []
  | arg :: rest => arg.unraw :: unrawAll rest

end

theorem unrawAll_eq_map (types : List ResolvedType) : unrawAll types = types.map unraw := by
  induction types with
  | nil => rfl
  | cons first rest ih => rw [unrawAll, ih, List.map_cons]

mutual

theorem mentionsEntity_unraw : (type : ResolvedType) → type.unraw.mentionsEntity = type.mentionsEntity
  | leaf _ | entity _ => rfl
  | list _ elem => mentionsEntity_unraw elem
  | map _ key value => by
    rw [unraw, mentionsEntity, mentionsEntity, mentionsEntity_unraw key, mentionsEntity_unraw value]
  | other _ args => anyMentions_unraw args

theorem anyMentions_unraw : (types : List ResolvedType) →
    anyMentions (unrawAll types) = anyMentions types
  | [] => rfl
  | first :: rest => by
    rw [unrawAll, anyMentions, anyMentions, mentionsEntity_unraw first, anyMentions_unraw rest]

end

theorem holdsEntities_unraw : (type : ResolvedType) → type.unraw.holdsEntities = type.holdsEntities
  | leaf _ | entity _ | other _ _ => rfl
  | list _ elem => holdsEntities_unraw elem
  | map _ key value => by
    rw [unraw, holdsEntities, holdsEntities, holdsEntities_unraw key, holdsEntities_unraw value]

def target? : ResolvedType → Option EntityType
  | entity target => some target
  | leaf _ | list _ _ | map _ _ _ | other _ _ => none

def args : ResolvedType → List ResolvedType
  | list _ elem => [elem]
  | map _ key value => [key, value]
  | other _ args => args
  | leaf _ | entity _ => []

theorem target?_unraw (type : ResolvedType) :
    type.unraw.target? = type.target?.map EntityType.unraw := by
  cases type <;> rfl

theorem args_unraw (type : ResolvedType) : type.unraw.args = type.args.map unraw := by
  cases type with
  | other raw args => exact unrawAll_eq_map args
  | leaf | entity | list | map => rfl

end ResolvedType

namespace Ty

/-- The third and the fourth type stand at one place of the first and of the second. -/
inductive Opposite : Ty → Ty → Ty → Ty → Prop
  | here (ty other : Ty) : Opposite ty other ty other
  | paren {inner inner' found found' : Ty} : Opposite inner inner' found found' →
      Opposite (.paren inner) (.paren inner') found found'
  | group {inner inner' found found' : Ty} : Opposite inner inner' found found' →
      Opposite (.group inner) (.group inner') found found'
  | argument {leading leading' : Bool} {segments segments' : List Segment}
      {arg arg' found found' : Ty} :
      (arg, arg') ∈ (Path.typeArgs ⟨leading, segments⟩).zip (Path.typeArgs ⟨leading', segments'⟩) →
      Opposite arg arg' found found' →
      Opposite (.path leading segments) (.path leading' segments') found found'

end Ty

namespace EntityTable

variable {table other : EntityTable} {path path' : Path} {a b : Ty}

/-- A path is looked up as another one is: as a bare name, and as a container with as many
arguments as it has. -/
structure KnowsAlike (table other : EntityTable) (path path' : Path) : Prop where
  names : ∀ x y, path = ⟨false, [.bare x]⟩ → path' = ⟨false, [.bare y]⟩ →
    (table.lookup x.text).map EntityType.unraw = (other.lookup y.text).map EntityType.unraw
  containers : ∀ container, path.typeArgs.length = container.arity →
    (path.Denotes container ↔ path'.Denotes container)

/-- At each place of two types the paths that stand there are looked up alike. -/
def ReadsAlike (table other : EntityTable) (a b : Ty) : Prop :=
  ∀ path path' : Path, a.Opposite b path.ty path'.ty → table.KnowsAlike other path path'

theorem readsAlike_paren : table.ReadsAlike other (.paren a) (.paren b) ↔
    table.ReadsAlike other a b := by
  refine ⟨fun reads path path' place => reads path path' (.paren place), fun reads path path' => ?_⟩
  generalize left : path.ty = found
  generalize right : path'.ty = found'
  rintro (_ | ⟨place⟩ | _ | _)
  · cases left
  · subst left right
    exact reads path path' place

theorem readsAlike_group : table.ReadsAlike other (.group a) (.group b) ↔
    table.ReadsAlike other a b := by
  refine ⟨fun reads path path' place => reads path path' (.group place), fun reads path path' => ?_⟩
  generalize left : path.ty = found
  generalize right : path'.ty = found'
  rintro (_ | _ | ⟨place⟩ | _)
  · cases left
  · subst left right
    exact reads path path' place

theorem readsAlike_path : table.ReadsAlike other path.ty path'.ty ↔
    table.KnowsAlike other path path' ∧
      ∀ pair ∈ path.typeArgs.zip path'.typeArgs, table.ReadsAlike other pair.1 pair.2 := by
  constructor
  · intro reads
    exact ⟨reads path path' (.here ..), fun pair member inner inner' place =>
      reads inner inner' (.argument member place)⟩
  · rintro ⟨known, reads⟩ inner inner'
    generalize left : inner.ty = found
    generalize right : inner'.ty = found'
    rintro (_ | _ | _ | ⟨member, place⟩)
    · obtain rfl := Path.ty_injective left
      obtain rfl := Path.ty_injective right
      exact known
    · subst left right
      exact reads _ member inner inner' place

theorem length_typeArgs (same : path.unraw = path'.unraw) :
    path.typeArgs.length = path'.typeArgs.length := by
  have args := congrArg Path.typeArgs same
  rw [Path.typeArgs_unraw, Path.typeArgs_unraw] at args
  simpa using congrArg List.length args

theorem target?_resolve_bare (table : EntityTable) (x : Ident) :
    (table.resolve (Path.ty ⟨false, [.bare x]⟩)).target? = table.lookup x.text := by
  cases found : table.lookup x.text with
  | some target => rw [Path.ty, resolve_of_named found, ResolvedType.target?]
  | none =>
    rw [resolve_of_plain rfl, ResolvedType.target?]
    rintro _ ⟨⟩
    exact found

theorem args_resolve (table : EntityTable) (path : Path) :
    (table.resolve path.ty).args = path.typeArgs.map table.resolve := by
  generalize type : table.resolve path.ty = node
  cases resolve_eq_iff.mp type with
  | @entity x target named _ =>
    obtain rfl : path = ⟨false, [.bare x]⟩ := Path.ty_injective named
    rfl
  | list named _ single =>
    obtain rfl := Path.ty_injective named
    rw [single]
    rfl
  | map named _ pair =>
    obtain rfl := Path.ty_injective named
    rw [pair]
    rfl
  | other named _ _ =>
    obtain rfl := Path.ty_injective named
    rfl
  | leaf _ plain =>
    rw [plain path rfl]
    rfl

/-- Nodes are the same tree if they are looked up alike and their arguments are the same trees. -/
theorem resolve_unraw_of_known (same : path.unraw = path'.unraw)
    (known : table.KnowsAlike other path path')
    (args : path.typeArgs.map (fun arg => (table.resolve arg).unraw) =
      path'.typeArgs.map fun arg => (other.resolve arg).unraw) :
    (table.resolve path.ty).unraw = (other.resolve path'.ty).unraw := by
  have lengths := length_typeArgs same
  generalize type : table.resolve path.ty = node
  cases resolve_eq_iff.mp type with
  | @entity x target named found =>
    obtain rfl : path = ⟨false, [.bare x]⟩ := Path.ty_injective named
    obtain ⟨y, rfl⟩ := Path.eq_bare_of_unraw_eq same.symm rfl
    have looked := known.names x y rfl rfl
    rw [found, Option.map_some, eq_comm, Option.map_eq_some_iff] at looked
    obtain ⟨target', found', alike⟩ := looked
    rw [show other.resolve (Path.ty ⟨false, [.bare y]⟩) = .entity target' from
      resolve_of_named found']
    exact congrArg ResolvedType.entity alike.symm
  | @list _ kind _ named denotes single =>
    obtain rfl := Path.ty_injective named
    have fits : _ = (Container.list kind).arity := congrArg List.length single
    obtain ⟨arg', single'⟩ := List.length_eq_one_iff.mp (lengths.symm.trans fits)
    rw [single, single'] at args
    have form : other.Form path'.ty _ := .list rfl ((known.containers _ fits).mp denotes) single'
    rw [resolve_of_form form]
    exact congrArg (ResolvedType.list _) (List.singleton_inj.mp args)
  | @map _ kind _ _ named denotes pair =>
    obtain rfl := Path.ty_injective named
    have fits : _ = (Container.map kind).arity := congrArg List.length pair
    obtain ⟨key', value', pair'⟩ := List.length_eq_two.mp (lengths.symm.trans fits)
    rw [pair, pair'] at args
    have form : other.Form path'.ty _ := .map rfl ((known.containers _ fits).mp denotes) pair'
    obtain ⟨key, rest⟩ := List.cons.inj args
    rw [resolve_of_form form]
    exact congrArg₂ (ResolvedType.map _) key (List.singleton_inj.mp rest)
  | other named nonempty unfit =>
    obtain rfl := Path.ty_injective named
    have nonempty' : path'.typeArgs ≠ [] := by
      rw [← List.length_pos_iff, ← lengths]
      exact List.length_pos_iff.mpr nonempty
    have form : other.Form path'.ty _ := .other rfl nonempty' fun container denotes fits =>
      have here := lengths.trans fits
      unfit container ((known.containers container here).mpr denotes) here
    rw [resolve_of_form form, ResolvedType.unraw, ResolvedType.unraw, ResolvedType.unrawAll_eq_map,
      ResolvedType.unrawAll_eq_map, List.map_map, List.map_map, ← Path.withoutLastArgs_unraw,
      ← Path.withoutLastArgs_unraw, same]
    exact congrArg (ResolvedType.other _) args
  | leaf free plain =>
    have none' : path'.typeArgs = [] := by
      rw [← List.length_eq_zero_iff, ← lengths, plain path rfl, List.length_nil]
    have leaf : other.resolve path'.ty = .leaf path'.ty := by
      refine resolve_of_plain none' ?_
      rintro y rfl
      obtain ⟨x, rfl⟩ := Path.eq_bare_of_unraw_eq same rfl
      have looked := known.names x y rfl rfl
      rw [free x rfl, Option.map_none, eq_comm, Option.map_eq_none_iff] at looked
      exact looked
    rw [leaf]
    exact congrArg (fun path : Path => ResolvedType.leaf path.ty) same

/-- A container is known as one in both trees if they are the same. -/
theorem denotes_of_resolve_unraw {container : Container} (fits : path.typeArgs.length = container.arity)
    (denotes : path.Denotes container)
    (trees : (table.resolve path.ty).unraw = (other.resolve path'.ty).unraw) :
    path'.Denotes container := by
  generalize type : other.resolve path'.ty = node at trees
  cases container with
  | list kind =>
    obtain ⟨arg, single⟩ := List.length_eq_one_iff.mp fits
    have form : table.Form path.ty _ := .list rfl denotes single
    rw [resolve_of_form form] at trees
    cases resolve_eq_iff.mp type with
    | list named denotes' _ =>
      obtain rfl := Path.ty_injective named
      obtain ⟨rfl, -⟩ := ResolvedType.list.inj trees
      exact denotes'
    | entity | map | other | leaf => cases trees
  | map kind =>
    obtain ⟨key, value, pair⟩ := List.length_eq_two.mp fits
    have form : table.Form path.ty _ := .map rfl denotes pair
    rw [resolve_of_form form] at trees
    cases resolve_eq_iff.mp type with
    | map named denotes' _ =>
      obtain rfl := Path.ty_injective named
      obtain ⟨rfl, -, -⟩ := ResolvedType.map.inj trees
      exact denotes'
    | entity | list | other | leaf => cases trees

/-- Nodes that are the same tree are looked up alike. -/
theorem known_of_resolve_unraw (same : path.unraw = path'.unraw)
    (trees : (table.resolve path.ty).unraw = (other.resolve path'.ty).unraw) :
    table.KnowsAlike other path path' := by
  refine ⟨?_, fun container fits => ⟨fun denotes => denotes_of_resolve_unraw fits denotes trees,
    fun denotes => denotes_of_resolve_unraw ((length_typeArgs same).symm.trans fits) denotes
      trees.symm⟩⟩
  rintro x y rfl rfl
  rw [← target?_resolve_bare, ← target?_resolve_bare, ← ResolvedType.target?_unraw,
    ← ResolvedType.target?_unraw]
  exact congrArg ResolvedType.target? trees

/-- Nodes that are the same tree have arguments that are. -/
theorem args_of_resolve_unraw
    (trees : (table.resolve path.ty).unraw = (other.resolve path'.ty).unraw) :
    path.typeArgs.map (fun arg => (table.resolve arg).unraw) =
      path'.typeArgs.map fun arg => (other.resolve arg).unraw := by
  have args := congrArg ResolvedType.args trees
  rw [ResolvedType.args_unraw, ResolvedType.args_unraw, args_resolve, args_resolve, List.map_map,
    List.map_map] at args
  exact args

/-- Two spellings of a type resolve to the same tree if and only if they are looked up alike at each
place. -/
theorem resolve_unraw_eq_iff {a b : Ty} (same : a.unraw = b.unraw) :
    (table.resolve a).unraw = (other.resolve b).unraw ↔ table.ReadsAlike other a b := by
  -- No path stands in a type of any other form.
  have plain (here : ∀ x y, a.Opposite b x y → x = a) (form : ∀ path : Path, path.ty ≠ a) :
      table.ReadsAlike other a b := fun path path' place => absurd (here _ _ place) (form path)
  cases a with
  | path leading segments =>
    cases b with
    | path leading' segments' =>
      let path : Path := ⟨leading, segments⟩
      let path' : Path := ⟨leading', segments'⟩
      have same : path.unraw = path'.unraw := by
        obtain ⟨rfl, segments⟩ := Ty.path.inj same
        exact congrArg (Path.mk leading) segments
      have args : ∀ pair ∈ path.typeArgs.zip path'.typeArgs, pair.1.unraw = pair.2.unraw := by
        rw [← map_eq_map_iff_zip (length_typeArgs same), ← Path.typeArgs_unraw, same,
          Path.typeArgs_unraw]
      have step : ∀ pair ∈ path.typeArgs.zip path'.typeArgs,
          (table.resolve pair.1).unraw = (other.resolve pair.2).unraw ↔
            table.ReadsAlike other pair.1 pair.2 := by
        intro pair member
        have smaller := Ty.sizeOf_lt_of_mem_typeArgs (List.of_mem_zip member).1
        exact resolve_unraw_eq_iff (args pair member)
      have each : path.typeArgs.map (fun arg => (table.resolve arg).unraw) =
          path'.typeArgs.map (fun arg => (other.resolve arg).unraw) ↔
            ∀ pair ∈ path.typeArgs.zip path'.typeArgs, table.ReadsAlike other pair.1 pair.2 :=
        (map_eq_map_iff_zip (length_typeArgs same)).trans (forall₂_congr step)
      show _ ↔ table.ReadsAlike other path.ty path'.ty
      rw [readsAlike_path, ← each]
      exact ⟨fun trees => ⟨known_of_resolve_unraw same trees, args_of_resolve_unraw trees⟩,
        fun reads => resolve_unraw_of_known same reads.1 reads.2⟩
    | paren | group | inferred | implTrait | invocation | composite => cases same
  | paren inner =>
    cases b with
    | paren inner' => exact (resolve_unraw_eq_iff (Ty.paren.inj same)).trans readsAlike_paren.symm
    | path | group | inferred | implTrait | invocation | composite => cases same
  | group inner =>
    cases b with
    | group inner' => exact (resolve_unraw_eq_iff (Ty.group.inj same)).trans readsAlike_group.symm
    | path | paren | inferred | implTrait | invocation | composite => cases same
  | inferred =>
    cases b with
    | inferred => exact iff_of_true rfl (plain (by rintro _ _ ⟨⟩; rfl) (by rintro _ ⟨⟩))
    | path | paren | group | implTrait | invocation | composite => cases same
  | implTrait pieces =>
    cases b with
    | implTrait pieces' =>
      exact iff_of_true (congrArg ResolvedType.leaf same)
        (plain (by rintro _ _ ⟨⟩; rfl) (by rintro _ ⟨⟩))
    | path | paren | group | inferred | invocation | composite => cases same
  | invocation code =>
    cases b with
    | invocation code' =>
      exact iff_of_true (congrArg ResolvedType.leaf same)
        (plain (by rintro _ _ ⟨⟩; rfl) (by rintro _ ⟨⟩))
    | path | paren | group | inferred | implTrait | composite => cases same
  | composite pieces =>
    cases b with
    | composite pieces' =>
      exact iff_of_true (congrArg ResolvedType.leaf same)
        (plain (by rintro _ _ ⟨⟩; rfl) (by rintro _ ⟨⟩))
    | path | paren | group | inferred | implTrait | invocation => cases same
termination_by sizeOf a

end EntityTable
end EntityGen
