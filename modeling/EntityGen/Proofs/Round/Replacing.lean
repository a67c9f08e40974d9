import EntityGen.Proofs.Entries
import EntityGen.Proofs.Round.Splicing
import EntityGen.Proofs.Spec.Sites

/-! What expansion replaces. It changes the tree of modules at the sites of the declarations that
intake reads, and nowhere else; the code for a struct goes to the first one of its name that stands
in a module of its path. -/
namespace EntityGen

namespace Buffer

variable {buffer : Buffer} {key other : StructKey}

def waitsFor (buffer : Buffer) (key : StructKey) : Option Code :=
  (buffer.entities.find? fun (other, _) => other == key).map Prod.snd

theorem take_fst (buffer : Buffer) (module : ModulePath) (spec : Ident) :
    (buffer.take module spec).1 = buffer.waitsFor (module, spec) := by
  unfold take waitsFor
  cases buffer.entities.find? fun (key, _) => key == (module, spec) <;> rfl

theorem waitsFor_take (buffer : Buffer) (module : ModulePath) (spec : Ident) (key : StructKey) :
    (buffer.take module spec).2.waitsFor key =
      if key = (module, spec) then none else buffer.waitsFor key := by
  unfold take waitsFor
  split
  next =>
    rw [find?_filter_ne]
    by_cases same : key = (module, spec) <;> simp [same]
  next absent =>
    by_cases same : key = (module, spec)
    · rw [if_pos same, same, absent]
      rfl
    · rw [if_neg same]

/-- What the site behind others is given: the code that waits for it, unless a site before it has
the same key. -/
def given (buffer : Buffer) (before : List Site) (site : Site) : Option Code :=
  site.key?.bind fun key =>
    if key ∈ before.filterMap Site.key? then none else buffer.waitsFor key

end Buffer

namespace Expansion

/-- What becomes of the items at some places: code comes in for them, or nothing. -/
abbrev Changes := Place → Option (Option Code)

/-- What stands at a place where `kept` would stand without the changes. -/
def Changes.apply (changes : Changes) (place : Place) (kept : Item) : List Item :=
  match changes place with
  | some code => code.toList.map (.other none)
  | none => [kept]

mutual

def replaceItem (changes : Changes) (place : Place) : Item → List Item
  | .struct decl => changes.apply place (.struct decl)
  | .enum decl => changes.apply place (.enum decl)
  | .module head none => changes.apply place (.module head none)
  | .module head (some items) =>
    changes.apply place (.module head (some (replaceItems changes place 0 items)))
  | .other name code => changes.apply place (.other name code)

/-- The items of the module at a place, from the `n`-th one on, after changes. -/
def replaceItems (changes : Changes) (outer : Place) (n : Nat) : List Item → List Item
  | [] => []
  | item :: rest =>
    replaceItem changes (outer ++ [n]) item ++ replaceItems changes outer (n + 1) rest

end

/-- The changes at some sites are those for the declarations that are read as specs. -/
def Follows (changes : Changes) (buffer : Buffer) (sites : List Site) : Prop :=
  ∀ before site after, sites = before ++ site :: after →
    changes site.place = site.outcome?.map fun _ => buffer.given before site

variable {changes : Changes} {buffer : Buffer} {sites others : List Site}

theorem Follows.left (follows : Follows changes buffer (sites ++ others)) :
    Follows changes buffer sites := by
  rintro before site after rfl
  exact follows before site (after ++ others) (by simp)

/-- Once the first sites are passed nothing waits for the structs at them. -/
theorem Follows.right {rest : Buffer} (follows : Follows changes buffer (sites ++ others))
    (passed : ∀ key, rest.waitsFor key =
      if key ∈ sites.filterMap Site.key? then none else buffer.waitsFor key) :
    Follows changes rest others := by
  rintro before site after rfl
  rw [follows (sites ++ before) site after (by simp)]
  congr 1
  funext _
  unfold Buffer.given
  congr 1
  funext key
  by_cases first : key ∈ sites.filterMap Site.key? <;>
    by_cases second : key ∈ before.filterMap Site.key? <;> simp [passed, first, second]

theorem Follows.here {site : Site} (follows : Follows changes buffer (site :: others)) :
    changes site.place = site.outcome?.map fun _ => site.key?.bind buffer.waitsFor := by
  rw [follows [] site others rfl]
  simp [Buffer.given]

theorem Changes.apply_of_some {place : Place} {code : Option Code} (kept : Item)
    (change : changes place = some code) :
    changes.apply place kept = code.toList.map (.other none) := by
  rw [apply, change]

theorem Changes.apply_of_none {place : Place} (kept : Item) (keeps : changes place = none) :
    changes.apply place kept = [kept] := by
  rw [apply, keeps]

theorem Follows.of_unread {site : Site} (follows : Follows changes buffer sites)
    (member : site ∈ sites) (unread : site.outcome? = none) : changes site.place = none := by
  obtain ⟨before, after, all⟩ := List.append_of_mem member
  rw [follows before site after all, unread]
  rfl

/-- A site where nothing is read stays, and it leaves what waits as it is. -/
theorem Follows.kept {site : Site} (follows : Follows changes buffer (site :: others))
    (unread : site.outcome? = none) : changes site.place = none ∧ site.key? = none := by
  refine ⟨follows.of_unread (.head _) unread, ?_⟩
  rcases found : site.key? with _ | key
  · rfl
  · have read := Site.outcome?_isSome found
    rw [unread] at read
    cases read

mutual

/-- An item is spliced by the changes at its sites. Nothing waits any longer for the structs that
were passed. -/
theorem spliceItem_eq : (place : Place) → (path : ModulePath) → (item : Item) →
    (buffer : Buffer) → Follows changes buffer (Site.ofItem place path item) →
    (spliceItem path item buffer).1 = replaceItem changes place item ∧
      ∀ key, (spliceItem path item buffer).2.waitsFor key =
        if key ∈ (Site.ofItem place path item).filterMap Site.key? then none
        else buffer.waitsFor key
  | place, path, .struct decl, buffer, follows => by
    have here := Follows.here follows
    rw [spliceItem, replaceItem, Site.ofItem]
    by_cases marked : decl.attrs.any Attribute.isSpec
    · have key : Site.key? ⟨place, path, .struct decl⟩ = some (path, decl.name) := by
        simp [Site.key?, marked]
      have change : changes place = some (buffer.waitsFor (path, decl.name)) := by
        simpa [Site.outcome?, marked, key] using here
      rw [if_pos marked, Changes.apply_of_some _ change, ← Buffer.take_fst]
      have waits := buffer.waitsFor_take path decl.name
      rcases taken : buffer.take path decl.name with ⟨_ | code, rest⟩ <;>
        rw [taken] at waits <;> simpa [key] using waits
    · obtain ⟨keeps, keyless⟩ := Follows.kept follows (by simp [Site.outcome?, marked])
      rw [if_neg marked, Changes.apply_of_none _ keeps]
      simp [keyless]
  | place, path, .enum decl, buffer, follows => by
    rw [spliceItem, replaceItem, Site.ofItem]
    by_cases marked : decl.attrs.any Attribute.isSpec
    · have change : changes place = some none := by
        simpa [Site.outcome?, Site.key?, marked] using Follows.here follows
      rw [if_pos marked, Changes.apply_of_some _ change]
      simp [Site.key?]
    · obtain ⟨keeps, keyless⟩ := Follows.kept follows (by simp [Site.outcome?, marked])
      rw [if_neg marked, Changes.apply_of_none _ keeps]
      simp [keyless]
  | place, path, .module head none, buffer, follows => by
    rw [spliceItem, replaceItem, Site.ofItem,
      Changes.apply_of_none _ (Follows.kept follows rfl).1]
    simp [Site.key?]
  | place, path, .module head (some items), buffer, follows => by
    have inside : Follows changes buffer (Site.ofItems place 0 (path ++ [head.name]) items) := by
      rw [Site.ofItem, ← List.singleton_append] at follows
      exact follows.right fun key => by simp [Site.key?]
    obtain ⟨spliced, waits⟩ := spliceItems_eq place 0 (path ++ [head.name]) items buffer inside
    rw [spliceItem, replaceItem, Site.ofItem,
      Changes.apply_of_none _ (Follows.kept follows rfl).1]
    exact ⟨by rw [← spliced], by simpa [Site.key?] using waits⟩
  | place, path, .other _ _, buffer, follows => by
    rw [spliceItem, replaceItem, Site.ofItem,
      Changes.apply_of_none _ (Follows.kept follows rfl).1]
    simp [Site.key?]

theorem spliceItems_eq : (outer : Place) → (n : Nat) → (path : ModulePath) →
    (items : List Item) → (buffer : Buffer) →
    Follows changes buffer (Site.ofItems outer n path items) →
    (spliceItems path items buffer).1 = replaceItems changes outer n items ∧
      ∀ key, (spliceItems path items buffer).2.waitsFor key =
        if key ∈ (Site.ofItems outer n path items).filterMap Site.key? then none
        else buffer.waitsFor key
  | _, _, _, [], buffer, _ => by
    simp [spliceItems, replaceItems, Site.ofItems]
  | outer, n, path, item :: rest, buffer, follows => by
    rw [Site.ofItems] at follows
    obtain ⟨first, waits⟩ := spliceItem_eq (outer ++ [n]) path item buffer follows.left
    obtain ⟨others, waits'⟩ := spliceItems_eq outer (n + 1) path rest
      (spliceItem path item buffer).2 (follows.right waits)
    rw [spliceItems, replaceItems, Site.ofItems]
    refine ⟨by rw [← first, ← others], fun key => ?_⟩
    rw [waits', waits, List.filterMap_append]
    by_cases before : key ∈ (Site.ofItem (outer ++ [n]) path item).filterMap Site.key? <;>
      simp [before]

end

def Changes.of (buffer : Buffer) (sites : List Site) : Changes := fun place =>
  (sites.find? fun site => site.place == place).bind fun site => site.outcome?.map fun _ =>
    buffer.given (sites.takeWhile fun site => site.place != place) site

theorem follows_of (buffer : Buffer) (distinct : (sites.map Site.place).Nodup) :
    Follows (.of buffer sites) buffer sites := by
  rintro before site after rfl
  have apart : ∀ other ∈ before, other.place ≠ site.place := fun other first same => by
    rw [List.map_append, List.nodup_append] at distinct
    exact distinct.2.2 _ (List.mem_map_of_mem first) _ (List.mem_map_of_mem (.head _)) same
  have found : (before ++ site :: after).find? (fun other => other.place == site.place) =
      some site := by
    rw [List.find?_append, List.find?_eq_none.mpr (by simpa using apart)]
    simp
  have passed : (before ++ site :: after).takeWhile (fun other => other.place != site.place) =
      before := by
    rw [List.takeWhile_append_of_pos (by simpa using apart)]
    simp
  rw [Changes.of, found, passed]
  rfl

/-- The splicer replaces exactly the declarations that intake reads, and looks for the code of a
struct with the modules that its spec is read with. -/
theorem replaces_what_intake_reads (items : List Item) :
    ∃ sites, Intake.Finds items sites (Intake.ofItems [] items) ∧
      ∀ buffer : Buffer, ∃ changes, Follows changes buffer sites ∧
        (spliceItems [] items buffer).1 = replaceItems changes [] 0 items := by
  refine ⟨Site.all items, Intake.finds_all items, fun buffer => ?_⟩
  have follows := follows_of buffer (Site.ordered_all items).nodup_place
  exact ⟨_, follows, (spliceItems_eq [] 0 [] items buffer follows).1⟩

end Expansion
end EntityGen
