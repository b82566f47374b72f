import BeamScope.Proofs.ListingComplete

/-!
# Lines and source text decide nothing but the grouping

Two modules whose code, names, imports, exports and literals agree are analyzed alike, whatever
their line tables and debug chunks hold and whatever source text is at hand: both fail with the
same fault, or both give the same functions, apart from where one group ends and the next begins.

The argument goes through the analysis with no lines and no text. What is left of a listing once
its lines are forgotten (`ModuleAnalysis.lineless`) is that of this analysis.
-/

namespace BeamScope

/-- What a listing says of a function, lines forgotten. -/
structure FunctionListing.Lineless where
  signature : String
  entry : Nat
  categories : List (Category × Nat)
  instructions : List Instruction
  shown : List Instruction
  deriving DecidableEq

/-- What an analysis says of a module, lines forgotten. -/
structure ModuleAnalysis.Lineless where
  module : String
  exports : List String
  callGraph : CallGraph
  functions : List FunctionListing.Lineless
  deriving DecidableEq

def FunctionListing.lineless (l : FunctionListing) : FunctionListing.Lineless :=
  ⟨l.signature, l.entry, l.categories, l.function.instructions, SourceGroup.shown l.groups⟩

def ModuleAnalysis.lineless (a : ModuleAnalysis) : ModuleAnalysis.Lineless :=
  ⟨a.module, a.exports, a.callGraph, a.functions.map FunctionListing.lineless⟩

namespace Analysis

open SourceGroup

/-- The chunks that an analysis reads apart from lines. -/
def codeChunks : List String := ["AtU8", "Atom", "Code", "ImpT", "ExpT", "LitT"]

/-! ### Functions -/

theorem lineless_listing (width : Nat) (lines : LineTable) (source : Option SourceText)
    (f : RawFunction) :
    (listing width lines source f).lineless = (listing width .empty none f).lineless := by
  have hshown : shown (listing width lines source f).groups =
      shown (listing width .empty none f).groups := by
    rw [shown_listing, shown_listing]
  simp only [FunctionListing.lineless, hshown]
  rfl

theorem lineless_markAll (window : Option Nat) (ls : List FunctionListing) :
    (markAll window ls).map FunctionListing.lineless = ls.map FunctionListing.lineless := by
  induction ls with
  | nil => rfl
  | cons l rest ih =>
    simp only [markAll, List.map_cons, ih]
    cases l.anchor with
    | none => rfl
    | some a => simp only [FunctionListing.lineless, shown_map_markDistant]

theorem lineless_ofFunctions (opts : Options) (module : String) (exports : List String)
    (fs : List RawFunction) (lines : LineTable) (source : Option SourceText) :
    (ofFunctions opts module exports fs lines source).value.lineless =
      (ofFunctions opts module exports fs .empty none).value.lineless := by
  simp only [ofFunctions, ModuleAnalysis.lineless, lineless_markAll, List.map_map,
    Function.comp_def, lineless_listing opts.literalWidth lines source]

/-! ### Modules -/

/-- Notes apart, an analysis names the module, reads its code and lists its functions. -/
theorem value_ofContainer (opts : Options) (f : Container) (source : Option SourceText) :
    (ofContainer opts f source).value = do
      let module ← f.moduleName
      let atoms ← f.atoms
      let fs ← f.functions.value
      return (ofFunctions opts module (exportsOf f module atoms).value fs f.lineTable.value
        source).value := by
  unfold ofContainer
  cases f.moduleName with
  | error e => rfl
  | ok module =>
    cases f.atoms with
    | error e => rfl
    | ok atoms =>
      simp only [ok_bind, Noted.value_bind]
      cases f.functions.value with
      | error e => rfl
      | ok fs => rfl

theorem value_functions (f : Container) :
    f.functions.value = (do
      let atoms ← f.atoms
      let imports ← f.imports
      let code ← f.chunk "Code"
      (Code.tokenize ⟨atoms, imports, some f.literals.value, true⟩ code).value) := by
  unfold Container.functions
  cases f.atoms with
  | error e => rfl
  | ok atoms =>
    cases f.imports with
    | error e => rfl
    | ok imports =>
      simp only [ok_bind, Noted.value_bind]
      cases f.chunk "Code" with
      | error e => rfl
      | ok code => rfl

section Agreement

variable {f₁ f₂ : Container} (h : ∀ id ∈ codeChunks, f₁.chunk? id = f₂.chunk? id)

include h

theorem chunk_eq (id : String) (hid : id ∈ codeChunks) : f₁.chunk id = f₂.chunk id := by
  simp only [Container.chunk, h id hid]

theorem atoms_eq : f₁.atoms = f₂.atoms := by
  simp only [Container.atoms, h "AtU8" (by simp [codeChunks]),
    chunk_eq h "Atom" (by simp [codeChunks])]

theorem moduleName_eq : f₁.moduleName = f₂.moduleName := by
  simp only [Container.moduleName, atoms_eq h]

theorem exportsOf_eq (module : String) (atoms : AtomTable) :
    exportsOf f₁ module atoms = exportsOf f₂ module atoms := by
  simp only [exportsOf, Container.exports, chunk_eq h "ExpT" (by simp [codeChunks])]

theorem value_functions_eq : f₁.functions.value = f₂.functions.value := by
  rw [value_functions, value_functions]
  simp only [atoms_eq h, Container.imports, Container.literals,
    chunk_eq h "ImpT" (by simp [codeChunks]), h "LitT" (by simp [codeChunks]),
    chunk_eq h "Code" (by simp [codeChunks])]

end Agreement

/-- Lines and source text never influence the rest of an analysis: modules that agree in the chunks
with code and tables fail alike or are listed alike. -/
theorem lineless_ofContainer_eq (opts : Options) (f₁ f₂ : Container)
    (h : ∀ id ∈ codeChunks, f₁.chunk? id = f₂.chunk? id) (source₁ source₂ : Option SourceText) :
    (ofContainer opts f₁ source₁).value.map ModuleAnalysis.lineless =
      (ofContainer opts f₂ source₂).value.map ModuleAnalysis.lineless := by
  rw [value_ofContainer, value_ofContainer, moduleName_eq h, atoms_eq h, value_functions_eq h]
  simp only [exportsOf_eq h]
  cases f₂.moduleName with
  | error e => rfl
  | ok module =>
    cases f₂.atoms with
    | error e => rfl
    | ok atoms =>
      cases f₂.functions.value with
      | error e => rfl
      | ok fs =>
        have hl := lineless_ofFunctions opts module (exportsOf f₂ module atoms).value fs
        exact congrArg Except.ok ((hl f₁.lineTable.value source₁).trans
          (hl f₂.lineTable.value source₂).symm)

-- One function with two instructions behind line markers. The first file has a line table that gives
-- both the same line, the second one that breaks off, and a debug chunk; so the groups differ.
theorem lineless_ofContainer_eq_regrouped :
    let code : List Chunk :=
      [⟨[65, 116, 85, 56], 20, [0, 0, 0, 2, 1, 109, 1, 102]⟩,
        ⟨[67, 111, 100, 101], 36,
          [0, 0, 0, 16, 0, 0, 0, 0, 0, 0, 0, 153, 0, 0, 0, 3, 0, 0, 0, 1,
            1, 0x10, 2, 0x12, 0x22, 0x00, 1, 0x20, 153, 0x10, 19, 153, 0x20, 19, 3]⟩,
        ⟨[73, 109, 112, 84], 80, [0, 0, 0, 0]⟩]
    let lines : Chunk := ⟨[76, 105, 110, 101], 92,
      [0, 0, 0, 0, 0, 0, 0, 0, 0, 0, 0, 2, 0, 0, 0, 3, 0, 0, 0, 0, 0x01, 0x71, 0x71]⟩
    let broken : Chunk := ⟨[76, 105, 110, 101], 92, [0, 0, 0, 0]⟩
    let debug : Chunk := ⟨[68, 98, 103, 105], 104, [131, 106]⟩
    let f₁ : Container := ⟨116, code ++ [lines]⟩
    let f₂ : Container := ⟨108, code ++ [broken, debug]⟩
    let text : Option SourceText := some ⟨[(7, "f() -> ok.")]⟩
    let grouped (a : ModuleAnalysis) := a.functions.map fun l => l.groups.map SourceGroup.line
    (∀ id ∈ codeChunks, f₁.chunk? id = f₂.chunk? id) ∧
      (ofContainer ⟨60, none⟩ f₁ text).value.map ModuleAnalysis.lineless =
        (ofContainer ⟨60, none⟩ f₂ none).value.map ModuleAnalysis.lineless ∧
      (ofContainer ⟨60, none⟩ f₁ text).value.toOption.map grouped = some [[none, some 7]] ∧
      (ofContainer ⟨60, none⟩ f₂ none).value.toOption.map grouped =
        some [[none, some 1, some 2]] := by
  intro code lines broken debug f₁ f₂ text grouped
  have hchunks : ∀ id ∈ codeChunks, f₁.chunk? id = f₂.chunk? id := by decide +kernel +zetaReduce
  exact ⟨hchunks, lineless_ofContainer_eq ⟨60, none⟩ f₁ f₂ hchunks text none,
    by decide +kernel +zetaReduce, by decide +kernel +zetaReduce⟩

end Analysis

end BeamScope
