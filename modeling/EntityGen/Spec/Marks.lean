import EntityGen.Grammar.Source
import EntityGen.Spec.Error

/-! The attributes that make a declaration an entity spec: the one that names the entity, the one
that marks the id field, and lists of derived traits. All others are carried over to what is
generated. -/
namespace EntityGen

namespace Attribute

def isSpec (attr : Attribute) : Bool := attr.path.isWord "entity_spec"
def isId (attr : Attribute) : Bool := attr.path.isWord "entity_id"
def isDerive (attr : Attribute) : Bool := attr.path.isWord "derive"

/-- Attributes that say nothing about entities stay with what they belong to. -/
def isCarried (attr : Attribute) : Bool := !attr.isSpec && !attr.isId && !attr.isDerive

/-- The bracketed arguments of an attribute, read by a rule that takes all of them. -/
def readArgs (attr : Attribute) (rule : Rules → Scan α) : Except Fault α :=
  match attr.args with
  | .list _ content => readAll rule content
  | .none => .error ⟨"expected attribute arguments in parentheses: #[" ++ attr.path.code.compact ++
      "(...)]", attr.pathPos⟩
  | .value equals =>
    .error ⟨"expected parentheses: #[" ++ attr.path.code.compact ++ "(...)]", equals⟩

end Attribute

structure SpecName where
  name : String
  className : Option String
  deriving DecidableEq, Repr

namespace SpecName
open Scan

/-- What was given so far, each with its place. The last value counts. -/
structure Given where
  name : Option (String × Pos) := none
  className : Option (String × Pos) := none
  deriving DecidableEq, Repr

def nextName (names : List Ident) : Scan (Option (List Ident)) := do
  if ← optionalSign "::" then return some (names ++ [← anyWord]) else return none

def argumentPath : Scan (NamePath × Pos) := do
  let leading ← optionalSign "::"
  let rest ← ahead
  if !Ahead.anyWord rest then
    if Ahead.finished rest then fail "expected nested attribute"
    if Ahead.literal rest then failAt "unexpected literal in nested attribute, expected ident"
    failAt "unexpected token in nested attribute, expected ident"
  let first ← anyWord
  let names ← folded nextName [first]
  return (⟨leading, names⟩, Ahead.pos rest)

def argumentValue : Scan (String × Pos) := do
  expectSign "="
  let rest ← ahead
  match (Ahead.literalText? rest).bind Quoted.value? with
  | some text =>
    discard take
    return (text, Ahead.pos rest)
  | none => fail "expected string literal"

def argument : Scan (Given → Given) := do
  let (path, pos) ← argumentPath
  if path.isWord "name" then
    let value ← argumentValue
    return fun given => { given with name := some value }
  else if path.isWord "class_name" then
    let value ← argumentValue
    return fun given => { given with className := some value }
  else throw ⟨"unknown entity_spec argument, expected `name` or `class_name`", pos⟩

def arguments : Scan Given :=
  return (← listed "," argument).foldl (fun given change => change given) {}

/-- The names in the one attribute that gives them. Errors know the declaration by `fallback`. -/
def ofAttributes (attrs : List Attribute) (fallback : String) : Except SpecError SpecName :=
  let invalid (defect : SpecDefect) (pos : Pos) : SpecError := ⟨fallback, .invalid defect, pos⟩
  match attrs.filter Attribute.isSpec with
  | [] => .error (invalid .missingAttribute .none)
  | [attr] =>
    match attr.readArgs (fun _ => arguments) with
    | .error fault => .error (invalid (.arguments fault.message) fault.pos)
    | .ok given =>
      match given.name with
      | none => .error (invalid .missingName attr.pos)
      | some (name, pos) =>
        if name.isEmpty then .error (invalid .emptyName pos)
        else .ok ⟨name, given.className.map Prod.fst⟩
  | _ :: extra :: _ => .error (invalid .repeatedAttribute extra.pos)

end SpecName

def derivedPaths (g : Rules) : Scan (List Path) := Scan.listed "," (Rules.path g false)

def derivedTraits (spec : String) : List Attribute → Except SpecError (List Path)
  | [] => return []
  | attr :: rest => do
    if attr.isDerive then
      let paths ← (attr.readArgs derivedPaths).mapError fun fault =>
        ⟨spec, .invalid (.arguments fault.message), fault.pos⟩
      return paths ++ (← derivedTraits spec rest)
    else derivedTraits spec rest

end EntityGen
