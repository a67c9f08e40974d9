import EntityGen.Grammar.Source
import EntityGen.Proofs.Grammar.Methods

/-! Items and units that are read wherever they stand, and whole files of them. -/
namespace EntityGen

open Code Rules Scan

structure FieldDecl.Readable (field : FieldDecl) : Prop where
  attrs : ∀ code ∈ field.attrs, IsAttribute code
  free : field.name.isKeyword = false
  type : IsType field.type

structure VariantDecl.Readable (variant : VariantDecl) : Prop where
  attrs : ∀ code ∈ variant.attrs, IsAttribute code
  free : variant.name.isKeyword = false
  payload : IsType variant.payload

def TypeShape.Readable : TypeShape → Prop
  | .struct fields => ∀ field ∈ fields, field.Readable
  | .enum variants => ∀ variant ∈ variants, variant.Readable
  | .trait methods => ∀ method ∈ methods, method.Readable

structure ImplDecl.Readable (impl : ImplDecl) : Prop where
  attrs : ∀ code ∈ impl.attrs, IsAttribute code
  trait : IsTypePath impl.trait
  items : impl.items = []
  methods : ∀ method ∈ impl.methods, method.Readable

structure TypeDecl.Readable (decl : TypeDecl) : Prop where
  attrs : ∀ code ∈ decl.attrs, IsAttribute code
  vis : decl.vis = [] ∨ decl.vis = [.plain "pub"]
  free : decl.name.isKeyword = false
  shape : decl.shape.Readable
  inherent : ∀ method ∈ decl.inherent, method.Readable
  impls : ∀ impl ∈ decl.impls, impl.Readable

variable {depth : Nat} {rest code : Code} {codes : List Code} {x : Ident} {g : Rules}

theorem FieldDecl.Readable.entry {field : FieldDecl} (readable : field.Readable)
    (enough : field.code.length ≤ depth) : Entry (namedField (nested depth)) field.code where
  begins rest := by
    have begins : BeginsItem (field.code ++ rest) :=
      (beginsItem_attributed readable.attrs ⟨_, _, rfl, .inl ⟨_, rfl⟩⟩).append
    exact begins.not_ended
  reads rest ends := by
    simp only [FieldDecl.code, List.length_append, List.length_cons] at enough
    simp only [FieldDecl.code, List.append_assoc, List.cons_append]
    have other {name : String} (keyword : keywords.contains name = true) :
        field.name ≠ ⟨name, false⟩ := by
      intro same
      have free := readable.free
      rw [same, Ident.isKeyword, Bool.not_false, Bool.true_and, keyword] at free
      cases free
    have begins : BeginsType (field.type ++ rest) := readable.type.begins.append
    refine (reaches_attributes readable.attrs (by omega) (unsigned_word "#" (by decide))).bind
      fun attrs _ => ?_
    refine (reaches_visibility (other (by decide)) (.inl rfl)).bind fun _ _ => ?_
    refine yields_ahead_cons fun joint behind _ => yields_ahead_cons fun joint behind _ => ?_
    dsimp only
    rw [Ahead.word_word, beq_eq_false_iff_ne.mpr (other (by decide)), if_neg Bool.false_ne_true]
    refine (yields_ident readable.free).bind fun name _ => ?_
    refine (reaches_expectSign rfl begins.apart_colon).bind fun _ _ => yields_ahead fun _ _ => ?_
    refine (readable.type.reads true depth rest (by omega) ends.endsType).bind fun type _ => ?_
    exact reaches_emit.bind fun _ _ => reaches_pure

theorem VariantDecl.Readable.entry {variant : VariantDecl} (readable : variant.Readable)
    (enough : variant.code.length ≤ depth) : Entry (Rules.variant (nested depth)) variant.code where
  begins rest := by
    have begins : BeginsItem (variant.code ++ rest) :=
      (beginsItem_attributed readable.attrs ⟨_, _, rfl, .inl ⟨_, rfl⟩⟩).append
    exact begins.not_ended
  reads rest ends := by
    simp only [VariantDecl.code, Code.within, List.length_append, List.length_cons,
      List.length_nil] at enough
    simp only [VariantDecl.code, List.append_assoc, List.cons_append]
    have unvisible :
        Unworded "pub" (.word variant.name :: (within .round variant.payload ++ rest)) := by
      intro same
      have free := readable.free
      rw [Token.word.inj (Option.some.inj same)] at free
      exact absurd free (by decide)
    have payload : Entry (do
        discard <| attributes (nested depth)
        visibility
        typeHere (nested depth) true : Scan Unit) variant.payload := by
      refine ⟨fun rest => readable.payload.begins.not_ended, fun rest ends => ?_⟩
      have begins : BeginsType (variant.payload ++ rest) := readable.payload.begins.append
      refine (yields_attributes_stop (begins.unsigned rfl (by decide))).discard.bind fun _ _ => ?_
      refine (reaches_visibility_absent begins.unpublished).bind fun _ _ => ?_
      exact (readable.payload.reads true depth rest (by omega) ends.endsType).bind
        fun _ _ => reaches_emit
    have content : (tupleFields (nested depth)).Reaches (within .round variant.payload ++ rest)
        rest := by
      have inside :=
        reaches_separated (List.forall_mem_singleton.mpr payload) (@ended_closing rest .round)
      rw [commas_singleton] at inside
      rw [within_append]
      exact inside.within
    refine (reaches_attributes readable.attrs (by omega)
      (unsigned_word "#" (by decide))).discard.bind fun _ _ => ?_
    refine (reaches_visibility_absent unvisible).captured.discard.bind fun _ _ => ?_
    refine (yields_ident readable.free).discard.bind fun _ _ => ?_
    rw [within_append] at content ⊢
    refine yields_ahead_cons fun joint behind _ => content.bind fun _ _ => ?_
    refine (yields_optionalSign_absent (ends.unsigned (by decide) (by decide))).bind
      fun found none => ?_
    subst none
    exact reaches_pure

/-- Methods one after the other are read between the brackets of what they belong to. -/
theorem reaches_associatedItems {methods : List Method} (each : ∀ method ∈ methods, method.Readable)
    (enough : (methods.flatMap Method.code).length ≤ depth) :
    (associatedItems (nested depth)).Reaches (within .curly (methods.flatMap Method.code) ++ rest)
      rest := by
  have outer : Outer (methods.flatMap Method.code ++ .closing .curly :: rest) := by
    cases methods with
    | nil => exact outer_of_unmarked (unsigned_of_head (by decide) (by simp))
    | cons method methods =>
      rw [List.flatMap_cons, List.append_assoc]
      exact (each method List.mem_cons_self).begins.append.outer
  rw [within_append]
  refine ((yields_innerAttributes_stop outer).discard.bind fun _ _ => ?_ : Reaches _ _ _).within
  refine reaches_repeated
    (fun whole => ∃ methods : List Method, (∀ method ∈ methods, method.Readable) ∧
    (methods.flatMap Method.code).length ≤ depth ∧
      whole = methods.flatMap Method.code ++ .closing .curly :: rest) ?_
        ⟨methods, each, enough, rfl⟩
  rintro _ ⟨methods, each, enough, rfl⟩
  cases methods with
  | nil =>
    refine .inl (yields_ahead fun lexemes lexed => ?_)
    rw [(finished_iff lexed).mpr ended_closing]
    exact yields_pure rfl
  | cons method methods =>
    obtain ⟨first, others⟩ := List.forall_mem_cons.mp each
    rw [List.flatMap_cons, List.length_append] at enough
    rw [List.flatMap_cons, List.append_assoc]
    refine .inr ⟨_, ?_, ⟨methods, others, by omega, rfl⟩, yields_ahead fun lexemes lexed => ?_⟩
    · have some := first.begins.length_pos
      simp only [List.length_append]
      omega
    · rw [finished_eq_false lexed first.begins.append.not_ended]
      exact (first.reaches (by omega)).bind fun _ _ => yields_pure rfl

namespace Code

structure IsItem (code : Code) : Prop where
  begins : BeginsItem code
  reads : ∀ depth rest, code.length ≤ depth → (oneItem (nested depth)).Reaches (code ++ rest) rest

/-- An item is its attributes, its visibility, and what begins with a word. -/
theorem isItem_of_behind {mark later : Code} (each : ∀ code ∈ codes, IsAttribute code)
    (marks : mark = [] ∨ mark = [.plain "pub"])
    (read : ∀ depth rest attrs attrCode start, later.length < depth →
      (itemBehind (nested depth) attrs attrCode start).Reaches
        (mark ++ .word x :: (later ++ rest)) rest) :
    IsItem (codes.flatten ++ (mark ++ .word x :: later)) where
  begins := by
    refine beginsItem_attributed each ?_
    rcases marks with rfl | rfl <;> exact ⟨_, _, rfl, .inl ⟨_, rfl⟩⟩
  reads depth rest enough := by
    simp only [List.length_append, List.length_cons] at enough
    simp only [List.append_assoc, List.cons_append]
    have unmarked : Unsigned "#" (mark ++ .word x :: (later ++ rest)) := by
      rcases marks with rfl | rfl <;> exact unsigned_word "#" (by decide)
    refine yields_ahead fun _ _ => (reaches_attributes each (by omega) unmarked).keeping.bind
      fun found _ => ?_
    exact read depth rest _ _ _ (by omega)

theorem isItem_struct {mark : Code} {fields : List FieldDecl}
    (each : ∀ code ∈ codes, IsAttribute code)
    (marks : mark = [] ∨ mark = [.plain "pub"]) (free : x.isKeyword = false)
    (readable : ∀ field ∈ fields, field.Readable) :
    IsItem (codes.flatten ++ (mark ++ .plain "struct" :: .word x ::
      within .curly (commas (fields.map FieldDecl.code)))) := by
  refine isItem_of_behind each marks fun depth rest attrs attrCode start enough => ?_
  simp only [Code.within, List.length_cons, List.length_append, List.length_nil] at enough
  have content : (namedFields (nested depth)).Reaches
      (within .curly (commas (fields.map FieldDecl.code)) ++ rest) rest := by
    rw [within_append]
    refine (reaches_listed (List.forall_mem_map.mpr fun field member => ?_) ended_closing).within
    have shorter := length_le_commas (List.mem_map_of_mem (f := FieldDecl.code) member)
    exact (readable field member).entry (by omega)
  rw [within_append] at content
  rw [List.cons_append, within_append]
  have known : (structFields (nested depth)).Reaches
      (.opening .curly :: (commas (fields.map FieldDecl.code) ++ .closing .curly :: rest))
        rest := by
    refine (yields_whereClause_absent (by simp [Unworded, Token.plain])).bind fun bounded none => ?_
    exact yields_ahead_cons fun joint behind _ => content.bind fun _ _ => reaches_pure
  refine (reaches_visibility (by decide) marks).keeping.bind fun vis _ => yields_ahead_cons
    fun joint behind _ => ?_
  refine Yields.bind (Yields.keeping (?_ : Reaches _ _ rest)) fun found _ => reaches_pure
  refine reaches_expectWord.bind fun _ _ => yields_ahead fun _ _ => (yields_ident free).bind
    fun _ _ => ?_
  refine (reaches_generics_absent (unsigned_of_head (by decide) (by simp))).bind fun general _ => ?_
  exact known.bind fun _ _ => reaches_pure

theorem isItem_enum {mark : Code} {variants : List VariantDecl}
    (each : ∀ code ∈ codes, IsAttribute code)
    (marks : mark = [] ∨ mark = [.plain "pub"]) (free : x.isKeyword = false)
    (readable : ∀ variant ∈ variants, variant.Readable) :
    IsItem (codes.flatten ++ (mark ++ .plain "enum" :: .word x ::
      within .curly (commas (variants.map VariantDecl.code)))) := by
  refine isItem_of_behind each marks fun depth rest attrs attrCode start enough => ?_
  simp only [Code.within, List.length_cons, List.length_append, List.length_nil] at enough
  have content : (Scan.within .curly (separated "," (Rules.variant (nested depth)))).Reaches
      (within .curly (commas (variants.map VariantDecl.code)) ++ rest) rest := by
    rw [within_append]
    refine (reaches_separated (List.forall_mem_map.mpr fun variant member => ?_)
      ended_closing).within
    have shorter := length_le_commas (List.mem_map_of_mem (f := VariantDecl.code) member)
    exact (readable variant member).entry (by omega)
  rw [within_append] at content
  rw [List.cons_append, within_append]
  refine (reaches_visibility (by decide) marks).keeping.bind fun vis _ => yields_ahead_cons
    fun joint behind _ => ?_
  refine Yields.bind (Yields.keeping (?_ : Reaches _ _ rest)) fun found _ => reaches_pure
  refine reaches_expectWord.bind fun _ _ => yields_ahead fun _ _ => (yields_ident free).bind
    fun _ _ => ?_
  refine (reaches_generics_absent (unsigned_of_head (by decide) (by simp))).discard.bind
    fun _ _ => ?_
  refine (yields_whereClause_absent (by simp [Unworded, Token.plain])).discard.bind fun _ _ => ?_
  exact content.bind fun _ _ => reaches_pure

theorem isItem_trait {mark : Code} {methods : List Method} (each : ∀ code ∈ codes, IsAttribute code)
    (marks : mark = [] ∨ mark = [.plain "pub"]) (free : x.isKeyword = false)
    (readable : ∀ method ∈ methods, method.Readable) :
    IsItem (codes.flatten ++ (mark ++ .plain "trait" :: .word x ::
      within .curly (methods.flatMap Method.code))) := by
  refine isItem_of_behind each marks fun depth rest attrs attrCode start enough => ?_
  simp only [Code.within, List.length_cons, List.length_append, List.length_nil] at enough
  have content : (associatedItems (nested depth)).Reaches
      (within .curly (methods.flatMap Method.code) ++ rest) rest :=
    reaches_associatedItems readable (by omega)
  rw [within_append] at content
  rw [List.cons_append, within_append]
  have read : (traitItem (nested depth)).Reaches (.plain "trait" :: .word x :: .opening .curly ::
      (methods.flatMap Method.code ++ .closing .curly :: rest)) rest := by
    refine yields_ahead_cons fun joint behind _ => ?_
    refine (yields_optionalWord_absent (by simp [Unworded, Token.plain])).discard.bind fun _ _ => ?_
    refine (yields_optionalWord_absent (by simp [Unworded, Token.plain])).discard.bind fun _ _ => ?_
    refine reaches_expectWord.bind fun _ _ => yields_ahead fun _ _ => (yields_ident free).bind
      fun _ _ => ?_
    refine (reaches_generics_absent (unsigned_of_head (by decide) (by simp))).discard.bind
      fun _ _ => ?_
    refine (yields_optionalSign_absent (unsigned_of_head (by decide) (by simp))).bind
      fun found none => ?_
    subst none
    refine (yields_optionalSign_absent (unsigned_of_head (by decide) (by simp))).bind
      fun found none => ?_
    subst none
    refine (yields_whereClause_absent (by simp [Unworded, Token.plain])).discard.bind fun _ _ => ?_
    exact content.bind fun _ _ => reaches_pure
  refine (reaches_visibility (by decide) marks).keeping.bind fun vis _ => yields_ahead_cons
    fun joint behind _ => ?_
  refine Yields.bind (Yields.keeping (?_ : Reaches _ _ rest)) fun found _ => reaches_pure
  exact yields_ahead_cons fun joint behind _ => read

/-- The methods of a type, of its own or of a trait. -/
theorem isItem_impl {type target : Code} {methods : List Method}
    (each : ∀ code ∈ codes, IsAttribute code) (known : IsTypePath type)
    (targets : target = [] ∨ ∃ x, x.isKeyword = false ∧ target = [.plain "for", .word x])
    (readable : ∀ method ∈ methods, method.Readable) :
    IsItem (codes.flatten ++ ([] ++ .plain "impl" :: (type ++ (target ++
      within .curly (methods.flatMap Method.code))))) := by
  refine isItem_of_behind each (.inl rfl) fun depth rest attrs attrCode start enough => ?_
  simp only [Code.within, List.length_cons, List.length_append, List.length_nil] at enough
  have content : (associatedItems (nested depth)).Reaches
      (within .curly (methods.flatMap Method.code) ++ rest) rest :=
    reaches_associatedItems readable (by omega)
  rw [List.append_assoc, List.append_assoc]
  have ends {after : Code} : EndsType (within .curly after ++ rest) :=
    ⟨not_doubled_of_head (by simp [Code.within]), by simp [Code.within]⟩
  have begins : BeginsPath
      (type ++ (target ++ (within .curly (methods.flatMap Method.code) ++ rest))) :=
    known.begins _
  have targetRead : (do
      if ← optionalWord "for" then typeHere (nested depth) true
      discard <| whereClause (nested depth)
      associatedItems (nested depth) : Scan Unit).Reaches
        (target ++ (within .curly (methods.flatMap Method.code) ++ rest)) rest := by
    rw [within_append] at content ⊢
    have unbounded : (whereClause (nested depth)).Yields
        (.opening .curly :: (methods.flatMap Method.code ++ .closing .curly :: rest)) (· = false)
        (.opening .curly :: (methods.flatMap Method.code ++ .closing .curly :: rest)) :=
      yields_whereClause_absent (by simp [Unworded, Token.plain])
    rcases targets with rfl | ⟨y, free, rfl⟩
    · refine (yields_optionalWord_absent (by simp [Unworded, Token.plain])).bind
        fun found none => ?_
      subst none
      exact unbounded.discard.bind fun _ _ => content
    · refine yields_optionalWord.bind fun found some => ?_
      subst some
      have name := (isPath_word (.inl free)).isTypePath.isType.reads true depth
        (.opening .curly :: (methods.flatMap Method.code ++ .closing .curly :: rest))
        (by simp only [List.length_cons, List.length_nil] at enough ⊢; omega)
        ⟨not_doubled_of_head (by simp), by simp⟩
      have typed : (typeHere (nested depth) true).Reaches
          (.word y :: .opening .curly :: (methods.flatMap Method.code ++ .closing .curly :: rest))
          (.opening .curly :: (methods.flatMap Method.code ++ .closing .curly :: rest)) :=
        name.bind fun _ _ => reaches_emit
      exact typed.bind fun _ _ => unbounded.discard.bind fun _ _ => content
  have read : (implItem (nested depth)).Reaches (.plain "impl" :: (type ++ (target ++
      (within .curly (methods.flatMap Method.code) ++ rest)))) rest := by
    obtain ⟨unmarked, unconst⟩ :=
      begins.absent "!" "const" (by decide) (by decide) (by decide) (by decide)
    have typeEnds : EndsType (target ++ (within .curly (methods.flatMap Method.code) ++ rest)) := by
      rcases targets with rfl | ⟨y, -, rfl⟩
      · exact ends
      · exact ⟨not_doubled_of_head (by simp [Token.plain]), by simp⟩
    refine (yields_optionalWord_absent (by simp [Unworded, Token.plain])).discard.bind fun _ _ => ?_
    refine (yields_optionalWord_absent (by simp [Unworded, Token.plain])).discard.bind fun _ _ => ?_
    refine reaches_expectWord.bind fun _ _ => yields_ahead fun lexemes lexed => ?_
    rw [begins.unangled lexemes lexed]
    refine (yields_optionalWord_absent unconst).discard.bind fun _ _ => ?_
    refine (yields_optionalSign_absent unmarked).discard.bind fun _ _ => ?_
    have typed := known.isType.reads true depth _ (by omega) typeEnds
    exact (typed.bind fun _ _ => reaches_emit).bind fun _ _ => targetRead
  refine (reaches_visibility (by decide) (.inl rfl)).keeping.bind fun vis _ => yields_ahead_cons
    fun joint behind _ => ?_
  refine Yields.bind (Yields.keeping (?_ : Reaches _ _ rest)) fun found _ => reaches_pure
  exact yields_ahead_cons fun joint behind _ => read.bind fun _ _ => reaches_pure

/-- Items one after the other are read as a file. -/
theorem reaches_fileItems (each : ∀ code ∈ codes, IsItem code)
    (enough : codes.flatten.length < depth) :
    (fileItems (nested depth)).Reaches codes.flatten [] := by
  have outer : Outer codes.flatten := by
    cases codes with
    | nil => exact outer_of_unmarked (unsigned_of_head (by decide) (by simp))
    | cons code codes =>
      rw [List.flatten_cons]
      exact (each code List.mem_cons_self).begins.append.outer
  refine (yields_innerAttributes_stop outer).discard.bind fun _ _ => ?_
  refine yields_folded (fun _ whole => ∃ codes : List Code, (∀ code ∈ codes, IsItem code) ∧
    codes.flatten.length < depth ∧ whole = codes.flatten) ?_ ⟨codes, each, enough, rfl⟩
  rintro found _ ⟨codes, each, enough, rfl⟩
  cases codes with
  | nil =>
    refine .inl ⟨trivial, yields_ahead fun lexemes lexed => ?_⟩
    rw [List.flatten_nil, lexed_nil] at lexed
    subst lexed
    exact yields_pure rfl
  | cons code codes =>
    obtain ⟨first, others⟩ := List.forall_mem_cons.mp each
    rw [List.flatten_cons, List.length_append] at enough
    obtain ⟨depth, rfl⟩ : ∃ below, depth = below + 1 := ⟨depth - 1, by omega⟩
    rw [List.flatten_cons]
    refine .inr ⟨codes.flatten, ?_, yields_ahead fun lexemes lexed => ?_⟩
    · have some := first.begins.length_pos
      rw [List.length_append]
      omega
    · have more : lexemes.isEmpty = false := by
        obtain ⟨token, later, rfl, -⟩ := first.begins
        obtain ⟨left, -, -, rfl⟩ := lexed
        rfl
      rw [more]
      have read : ((nested (depth + 1)).item).Reaches (code ++ codes.flatten) codes.flatten :=
        first.reads depth codes.flatten (by omega)
      exact read.bind fun item _ => yields_pure ⟨_, rfl, codes, others, by omega, rfl⟩

end Code

/-- Code that is nothing but items is a file of them. -/
theorem Item.exists_listOfCode (each : ∀ code ∈ codes, IsItem code) :
    ∃ items, Item.listOfCode codes.flatten = .ok items := by
  have length : (Code.lexemes codes.flatten).length = codes.flatten.length :=
    (lexed_lexemes codes.flatten).length_eq
  have read : (fileItems (nested (4 * (Code.lexemes codes.flatten).length + 16))).Reaches
      codes.flatten [] :=
    reaches_fileItems each (by omega)
  obtain ⟨items, after, reads, -, left⟩ := read ⟨Code.lexemes codes.flatten, []⟩ (lexed_lexemes _)
  refine ⟨items, readAll_eq_ok.mpr ⟨after, reads, ?_⟩⟩
  rw [lexed_nil.mp left]
  rfl

namespace TypeDecl

variable {decl : TypeDecl}

/-- The type itself is one item. -/
theorem Readable.isItem (readable : decl.Readable) :
    IsItem (decl.attrs.flatten ++ (decl.vis ++ .plain decl.shape.word :: .word decl.name ::
      within .curly decl.shape.content)) := by
  have shape := readable.shape
  cases kind : decl.shape with
  | struct fields =>
    rw [kind] at shape
    exact isItem_struct readable.attrs readable.vis readable.free shape
  | enum variants =>
    rw [kind] at shape
    exact isItem_enum readable.attrs readable.vis readable.free shape
  | trait methods =>
    rw [kind] at shape
    exact isItem_trait readable.attrs readable.vis readable.free shape

/-- The code of a type is that of items one after the other. -/
theorem Readable.exists_items (readable : decl.Readable) :
    ∃ items : List Code, (∀ code ∈ items, IsItem code) ∧ decl.code = items.flatten := by
  have own : ∃ items : List Code, (∀ code ∈ items, IsItem code) ∧ items.flatten =
      if decl.inherent.isEmpty then [] else [.plain "impl", .word decl.name] ++
        within .curly (decl.inherent.flatMap Method.code) := by
    cases decl.inherent.isEmpty with
    | true => exact ⟨[], List.forall_mem_nil _, rfl⟩
    | false =>
      have item : IsItem
        (([] : List Code).flatten ++ ([] ++ .plain "impl" :: ([.word decl.name] ++ ([] ++
          within .curly (decl.inherent.flatMap Method.code))))) :=
        isItem_impl (List.forall_mem_nil _) (isPath_word (.inl readable.free)).isTypePath (.inl rfl)
          readable.inherent
      exact ⟨[_], List.forall_mem_singleton.mpr item, by simp⟩
  obtain ⟨own, ownItems, ownCode⟩ := own
  have impls : ∀ code ∈ decl.impls.map (·.code decl.name), IsItem code := by
    refine List.forall_mem_map.mpr fun impl member => ?_
    have known := readable.impls impl member
    have item := isItem_impl known.attrs known.trait (.inr ⟨decl.name, readable.free, rfl⟩)
      known.methods
    simpa [ImplDecl.code, known.items] using item
  refine ⟨_ :: (own ++ decl.impls.map (·.code decl.name)),
    List.forall_mem_cons.mpr ⟨readable.isItem, List.forall_mem_append.mpr ⟨ownItems, impls⟩⟩, ?_⟩
  rw [List.flatten_cons, List.flatten_append, ownCode, ← List.flatMap_def]
  simp [TypeDecl.code]

end TypeDecl

/-- Types that are read wherever they stand make up a file. -/
theorem Item.exists_listOfCode_of_readable {decls : List TypeDecl}
    (readable : ∀ decl ∈ decls, decl.Readable) :
    ∃ items, Item.listOfCode (decls.flatMap TypeDecl.code) = .ok items := by
  have all : ∃ codes : List Code,
      (∀ code ∈ codes, IsItem code) ∧ decls.flatMap TypeDecl.code = codes.flatten := by
    induction decls with
    | nil => exact ⟨[], List.forall_mem_nil _, rfl⟩
    | cons decl decls ih =>
      obtain ⟨first, others⟩ := List.forall_mem_cons.mp readable
      obtain ⟨codes, each, spelled⟩ := first.exists_items
      obtain ⟨later, eachLater, spelledLater⟩ := ih others
      refine ⟨codes ++ later, List.forall_mem_append.mpr ⟨each, eachLater⟩, ?_⟩
      rw [List.flatMap_cons, List.flatten_append, spelled, spelledLater]
  obtain ⟨codes, each, spelled⟩ := all
  rw [spelled]
  exact Item.exists_listOfCode each

end EntityGen
