import PhoenixLens.Proofs.Elixir.SchemaScan
import PhoenixLens.Proofs.SortedLists

/-!
# Schemas in a source

The schemas of a tree stand in the order of their lines, no two in one line. So the last step of the
scan, which sorts the finished schemas, brings them back into the order of the tree.
-/

namespace PhoenixLens.Elixir

/-! ### Order -/

/-- The schemas begin one after the other in lines from `first` on, before `stop`. -/
structure AreOrdered (first stop : Nat) (schemas : List SchemaInfo) : Prop where
  pairwise : schemas.Pairwise fun a b => a.line < b.line
  bounds : ∀ schema ∈ schemas, first ≤ schema.line ∧ schema.line < stop

namespace AreOrdered

variable {first middle stop : Nat} {schemas more : List SchemaInfo}

theorem nil : AreOrdered first stop [] := ⟨.nil, List.forall_mem_nil _⟩

theorem mono (h : AreOrdered middle stop schemas) (hFirst : first ≤ middle) :
    AreOrdered first stop schemas := by
  refine ⟨h.pairwise, fun schema hMem => ?_⟩
  have hBounds := h.bounds schema hMem
  omega

theorem append (h : AreOrdered first middle schemas) (hMore : AreOrdered middle stop more)
    (hFirst : first ≤ middle) (hStop : middle ≤ stop) :
    AreOrdered first stop (schemas ++ more) := by
  constructor
  · refine List.pairwise_append.mpr ⟨h.pairwise, hMore.pairwise, ?_⟩
    intro a ha b hb
    have hOwn := h.bounds a ha
    have hLater := hMore.bounds b hb
    omega
  · intro schema hMem
    rcases List.mem_append.mp hMem with hOwn | hLater
    · have hBounds := h.bounds schema hOwn
      omega
    · have hBounds := hMore.bounds schema hLater
      omega

theorem cons {schema : SchemaInfo} (hLine : schema.line = first) (hStop : first < stop)
    (h : AreOrdered (first + 1) stop schemas) : AreOrdered first stop (schema :: schemas) := by
  constructor
  · refine List.pairwise_cons.mpr ⟨?_, h.pairwise⟩
    intro other hOther
    have hBounds := h.bounds other hOther
    omega
  · intro other hOther
    rcases List.mem_cons.mp hOther with rfl | hLater
    · omega
    · have hBounds := h.bounds other hLater
      omega

/-- Behind the schemas of a block with its two lines come those of what follows the block. -/
theorem block {line height rest : Nat} (h : AreOrdered (line + 1) (line + 1 + height) schemas)
    (hMore : AreOrdered (line + (1 + (height + 1))) (line + (1 + (height + 1)) + rest) more) :
    AreOrdered (line + 1) (line + (1 + (height + (1 + rest)))) (schemas ++ more) := by
  have hStop : line + (1 + (height + 1)) + rest = line + (1 + (height + (1 + rest))) := by omega
  rw [hStop] at hMore
  exact h.append (hMore.mono (by omega)) (by omega) (by omega)

/-- Sorting by lines gives ordered schemas back, in whatever order they were found. -/
theorem mergeSort_eq {found : List SchemaInfo} (h : AreOrdered first stop schemas)
    (hPerm : found.Perm schemas) : found.mergeSort (fun a b => a.line ≤ b.line) = schemas :=
  sortBy_eq_of_perm SchemaInfo.line hPerm h.pairwise

end AreOrdered

section

variable (file : Path) (module : List Char) (table : AliasTable)

theorem SchemaBlock.areOrdered_embedded (block : SchemaBlock) (owner : List Char) (line : Nat) :
    AreOrdered line (line + block.height) (block.embedded table module file owner line) := by
  induction block generalizing owner line with
  | done => exact .nil
  | embed many declared body next ihBody ihNext =>
    rw [SchemaBlock.embedded, SchemaBlock.height]
    have hBody := ihBody (declared.blockTarget owner) (line + 1)
    exact .cons rfl (by omega) (hBody.block (ihNext owner _))
  | _ =>
    rename_i ih
    rw [SchemaBlock.embedded, SchemaBlock.height, ← Nat.add_assoc]
    exact (ih owner (line + 1)).mono (Nat.le_succ line)

theorem SchemaTree.areOrdered_schemas (tree : SchemaTree) (line : Nat) :
    AreOrdered line (line + tree.height) (tree.schemas file module table line) := by
  induction tree generalizing module table line with
  | done => exact .nil
  | schema table? parens body next ih =>
    rw [SchemaTree.schemas, SchemaTree.height]
    have hBody := body.areOrdered_embedded file module table module (line + 1)
    exact .cons rfl (by omega) (hBody.block (ih module table _))
  | module name body next ihBody ihNext =>
    rw [SchemaTree.schemas, SchemaTree.height]
    have hBody := ihBody (module ++ '.' :: name.1) table (line + 1)
    exact (hBody.block (ihNext module _ _)).mono (Nat.le_succ line)
  | _ =>
    rename_i ih
    rw [SchemaTree.schemas, SchemaTree.height, ← Nat.add_assoc]
    exact (ih module _ (line + 1)).mono (Nat.le_succ line)

theorem SchemaFile.areOrdered_schemas (modules : SchemaFile) (line : Nat) :
    ∃ stop, line ≤ stop ∧ AreOrdered line stop (modules.schemas file table line) := by
  induction modules generalizing table line with
  | nil => exact ⟨line, Nat.le_refl line, .nil⟩
  | cons declared modules ih =>
    obtain ⟨name, body⟩ := declared
    obtain ⟨stop, hStop, hModules⟩ :=
      ih (body.aliases name.1 table) (line + (1 + (body.height + 1)))
    have hBody := body.areOrdered_schemas file name.1 table (line + 1)
    refine ⟨stop, by omega, ?_⟩
    exact (hBody.append (hModules.mono (by omega)) (by omega) (by omega)).mono (Nat.le_succ line)

end

/-! ### Sources -/

theorem SchemaBlock.isSound_lines {block : SchemaBlock} (h : block.IsPlain) (width depth : Nat) :
    ∀ written ∈ block.lines width depth, written.IsSound := by
  induction block generalizing depth with
  | done => exact List.forall_mem_nil _
  | blank next ih =>
    rw [lines, List.forall_mem_cons]
    exact ⟨isSound_blank, ih h depth⟩
  | field declared next ih =>
    rw [lines, List.forall_mem_cons]
    exact ⟨isSound_call (FieldDeclaration.wellFormed h.1) _ _, ih h.2 depth⟩
  | timestamps options parens next ih =>
    rw [lines, List.forall_mem_cons]
    exact ⟨isSound_call (timestampsLine_wellFormed h.1 parens) _ _, ih h.2 depth⟩
  | association type declared next ih =>
    rw [lines, List.forall_mem_cons]
    exact ⟨isSound_call (AssociationDeclaration.wellFormed h.1 type false) _ _, ih h.2 depth⟩
  | embed many declared body next ihBody ihNext =>
    obtain ⟨hOptions, hBody, hNext⟩ := h
    rw [lines, List.forall_mem_cons, List.forall_mem_append, List.forall_mem_cons]
    exact ⟨isSound_call (AssociationDeclaration.wellFormed hOptions (embedType many) true) _ _,
      ihBody hBody _, isSound_end _ _, ihNext hNext depth⟩

theorem SchemaTree.isSound_lines {tree : SchemaTree} (h : tree.IsPlain) (width depth : Nat) :
    ∀ written ∈ tree.lines width depth, written.IsSound := by
  induction tree generalizing depth with
  | done => exact List.forall_mem_nil _
  | blank next ih =>
    rw [lines, List.forall_mem_cons]
    exact ⟨isSound_blank, ih h depth⟩
  | uses target next ih =>
    rw [lines, List.forall_mem_cons]
    exact ⟨isSound_call (SchemaState.usesLine_wellFormed target) _ _, ih h depth⟩
  | aliasLine declared parens next ih =>
    rw [lines, List.forall_mem_cons]
    exact ⟨isSound_call (declared.wellFormed parens) _ _, ih h depth⟩
  | schema table? parens body next ih =>
    obtain ⟨hBody, hNext⟩ := h
    rw [lines, List.forall_mem_cons, List.forall_mem_append, List.forall_mem_cons]
    exact ⟨isSound_call (SchemaState.schemaLine_wellFormed table? parens) _ _,
      SchemaBlock.isSound_lines hBody _ _, isSound_end _ _, ih hNext depth⟩
  | module name body next ihBody ihNext =>
    obtain ⟨hBody, hNext⟩ := h
    rw [lines, List.forall_mem_cons, List.forall_mem_append, List.forall_mem_cons]
    exact ⟨isSound_call (moduleCall_wellFormed name) _ _, ihBody hBody _, isSound_end _ _,
      ihNext hNext depth⟩

namespace SchemaFile

theorem isSound_lines {modules : SchemaFile} (h : ∀ m ∈ modules, m.2.IsPlain) (width : Nat) :
    ∀ written ∈ modules.lines width, written.IsSound := by
  induction modules with
  | nil => exact List.forall_mem_nil _
  | cons declared modules ih =>
    obtain ⟨name, body⟩ := declared
    obtain ⟨hBody, hModules⟩ := List.forall_mem_cons.mp h
    rw [lines, List.forall_mem_cons, List.forall_mem_append, List.forall_mem_cons]
    exact ⟨isSound_call (moduleCall_wellFormed name) _ _, SchemaTree.isSound_lines hBody _ _,
      isSound_end _ _, ih hModules⟩

/-- The schemas of a source are those of its tree, one for each schema block and each embedded
block, in the order of their lines. -/
theorem scan_schemas_source (disk : Disk) (file : Path) (width : Nat) (modules : SchemaFile)
    (h : ∀ m ∈ modules, m.2.IsPlain) :
    EntityKind.schemas.scan disk file (modules.source width) = modules.schemas file {} 1 := by
  have hLines := logicalLines_sourceText (isSound_lines h width)
  obtain ⟨found, hPerm, hOpen, hFinished⟩ := SchemaState.scanned_modules h
  obtain ⟨stop, -, hOrdered⟩ := modules.areOrdered_schemas file {} 1
  have hAll : (SchemaState.scanned file {} 1 (modules.lines width)).finished ++
      ((SchemaState.scanned file {} 1 (modules.lines width)).openSchemas.map
        OpenSchema.schema).reverse = found := by
    rw [hOpen, hFinished]
    exact List.append_nil found
  rw [EntityKind.scan, schemasOf, source, hLines]
  refine Eq.trans ?_ (hOrdered.mergeSort_eq hPerm)
  exact congrArg (List.mergeSort · _) hAll

theorem isModule_article : IsModule "Article".toList :=
  .part ⟨⟨'A', "rticle".toList, rfl, rfl⟩, by decide⟩

theorem isModule_user : IsModule "User".toList :=
  .part ⟨⟨'U', "ser".toList, rfl, rfl⟩, by decide⟩

theorem isModule_blogUser : IsModule "Blog.User".toList :=
  .dot ⟨⟨'B', "log".toList, rfl, rfl⟩, by decide⟩ isModule_user

theorem isAtomName_string : IsAtomName "string".toList := .inl (by decide)

/-- A module with an alias and a schema, whose first field takes the given values. -/
def articles (values : OptionValue) : SchemaFile :=
  [(⟨"Article".toList, isModule_article, by decide⟩,
    .aliasLine (.plain ⟨"Blog.User".toList, isModule_blogUser⟩) false
      (.schema (some ⟨[.char 'a' (by decide)]⟩) false
        (.field
          { name := ⟨"state".toList, .inl (by decide)⟩
            type? := some (.atom ⟨"string".toList, isAtomName_string⟩)
            options := [(⟨"values".toList, by decide⟩, values)] }
          (.association .belongsTo
            { name := ⟨"author".toList, .inl (by decide)⟩
              target? := some (.module ⟨"User".toList, isModule_user⟩)
              options := [] }
            (.embed false
              { name := ⟨"meta".toList, .inl (by decide)⟩, target? := none, options := [] }
              (.field { name := ⟨"title".toList, .inl (by decide)⟩, type? := none, options := [] }
                .done)
              .done)))
        .done))]

/-- The schemas of the module, if the values count as one argument. -/
def articleSchemas : List SchemaInfo :=
  [{ moduleName := "Article"
     tableName := some "a"
     filePath := ⟨"/app/article.ex"⟩
     line := 3
     fields := [{ name := "state", type := "string" }, { name := "author_id", type := "id" }]
     associations :=
       [{ fieldName := "author", targetModule := "Blog.User", type := .belongsTo },
        { fieldName := "meta", targetModule := "Article.Meta", type := .embedsOne }] },
   { moduleName := "Article.Meta"
     filePath := ⟨"/app/article.ex"⟩
     line := 6
     fields := [{ name := "title", type := "string" }] }]

theorem scan_schemas_source_articles :
    (∀ m ∈ articles (.other "~w(draft live)a".toList (by decide)), m.2.IsPlain) ∧
      EntityKind.schemas.scan {} ⟨"/app/article.ex"⟩
          ((articles (.other "~w(draft live)a".toList (by decide))).source 2) = articleSchemas := by
  have hValues : IsArgument "~w(draft live)a".toList := by decide
  have hPlain : ∀ m ∈ articles (.other "~w(draft live)a".toList (by decide)), m.2.IsPlain := by
    refine List.forall_mem_singleton.mpr ⟨⟨?_, ?_, ?_, ⟨?_, trivial⟩, trivial⟩, trivial⟩
    · exact List.forall_mem_singleton.mpr hValues
    all_goals exact List.forall_mem_nil _
  exact ⟨hPlain, (scan_schemas_source {} ⟨"/app/article.ex"⟩ 2 _ hPlain).trans (by decide)⟩

/-- The word `end` in a list of words counts as the end of a block: the schema is over with the
field that has the list, and what follows is lost. -/
theorem end_in_words_closes_schema :
    EntityKind.schemas.scan {} ⟨"/app/article.ex"⟩
          ((articles (.other "~w(start end)a".toList (by decide))).source 2) =
        [{ moduleName := "Article"
           tableName := some "a"
           filePath := ⟨"/app/article.ex"⟩
           line := 3
           fields := [{ name := "state", type := "string" }] }] ∧
      (articles (.other "~w(start end)a".toList (by decide))).schemas ⟨"/app/article.ex"⟩ {} 1 =
        articleSchemas := by
  constructor
  · rw [EntityKind.scan, schemasOf]
    refine (congrArg (List.mergeSort · _) ?_).trans (List.mergeSort_singleton _)
    decide +kernel
  · decide

end SchemaFile

end PhoenixLens.Elixir
