import BeamScope.InstructionSet.Classification
import BeamScope.Proofs.Bytes
import BeamScope.Proofs.DefinitionFiles
import Mathlib.Data.List.Nodup

/-!
# Which classifications fit their definitions

A table is made exactly if the classification fits: each part names only what is defined, under keys
that mean something, each instruction is in at most one category, all but the withdrawn ones are in
one, and each position of an import index is one of an operand. The table then has an entry for each
number up to the greatest, with the definition of that number and all that is said of its name.

Every pass over the classification is described by what it demands and what it returns. The last
check is made while entries are written, for the definition that a number finds first; numbers are
distinct in a definition file, so that each definition is found.
-/

namespace BeamScope.InstructionSet

/-! ### Passes -/

theorem bind_eq_ok_iff {ε α β : Type} {x : Except ε α} {f : α → Except ε β} {b : β} :
    (x >>= f) = .ok b ↔ ∃ a, x = .ok a ∧ f a = .ok b := by
  constructor
  · exact bind_eq_ok
  · rintro ⟨a, rfl, hb⟩
    exact hb

theorem check_bind_eq_ok {ε β : Type} {x : Except ε Unit} {f : Unit → Except ε β} {b : β} :
    (x >>= f) = .ok b ↔ x = .ok () ∧ f () = .ok b := by
  rw [bind_eq_ok_iff]
  constructor
  · rintro ⟨⟨⟩, hx, hb⟩
    exact ⟨hx, hb⟩
  · rintro ⟨hx, hb⟩
    exact ⟨(), hx, hb⟩

theorem unless_error_eq_ok {ε α β : Type} {b : Bool} {e : ε} {f : α → Except ε β}
    {x : Except ε β} {y : β} :
    (if (!b) = true then Except.error e >>= f else x) = .ok y ↔ b = true ∧ x = .ok y := by
  cases b <;> simp [bind, Except.bind]

/-- A pass that returns nothing succeeds if each of its steps does. -/
theorem forM_eq_ok {ε α : Type} {f : α → Except ε Unit} {demand : α → Prop}
    (hf : ∀ a, f a = .ok () ↔ demand a) (as : List α) :
    as.forM f = .ok () ↔ ∀ a ∈ as, demand a := by
  induction as with
  | nil => simp [List.forM, pure, Except.pure]
  | cons a as ih =>
    rw [List.forall_mem_cons, ← hf, ← ih]
    exact check_bind_eq_ok

theorem mapM_eq_ok {ε α β : Type} {f : α → Except ε β} {demand : α → Prop} {g : α → β}
    (hf : ∀ a b, f a = .ok b ↔ demand a ∧ b = g a) (as : List α) (bs : List β) :
    as.mapM f = .ok bs ↔ (∀ a ∈ as, demand a) ∧ bs = as.map g := by
  induction as generalizing bs with
  | nil => simp [pure, Except.pure, eq_comm]
  | cons a as ih =>
    rw [List.mapM_cons, bind_eq_ok_iff]
    simp only [hf, bind_eq_ok_iff, ih, List.forall_mem_cons, List.map_cons]
    constructor
    · rintro ⟨_, ⟨ha, rfl⟩, _, ⟨has, rfl⟩, hbs⟩
      cases hbs
      exact ⟨⟨ha, has⟩, rfl⟩
    · rintro ⟨⟨ha, has⟩, rfl⟩
      exact ⟨_, ⟨ha, rfl⟩, _, ⟨has, rfl⟩, rfl⟩

theorem byKey_perm {α : Type} (entries : List (String × α)) : (byKey entries).Perm entries :=
  List.mergeSort_perm entries _

theorem forall_mem_byKey {α : Type} {entries : List (String × α)} {demand : String × α → Prop} :
    (∀ p ∈ byKey entries, demand p) ↔ ∀ p ∈ entries, demand p := by
  simp only [(byKey_perm entries).mem_iff]

/-! ### Names -/

def Definitions.Defines (ds : Definitions) (name : String) : Prop := ∃ d ∈ ds.defs, d.name = name

theorem checkKnown_eq_ok (ds : Definitions) (part name : String) :
    checkKnown ds part name = .ok () ↔ ds.Defines name := by
  unfold checkKnown Definitions.Defines
  split
  · rename_i hany
    simpa using hany
  · rename_i hany
    simpa using hany

theorem ofName?_eq_some {key : String} {c : Category} :
    Category.ofName? key = some c ↔ c.name = key := by
  constructor
  · intro h
    simpa using List.find?_some h
  · rintro rfl
    cases c <;> rfl

theorem categoryOfKey?_eq_some {key : String} {c : Category} :
    categoryOfKey? key = some c ↔ c ≠ .unknown ∧ c.name = key := by
  rw [categoryOfKey?, Option.filter_eq_some_iff, ofName?_eq_some, decide_eq_true_eq, and_comm]

/-- The properties that a classification gives by name. -/
def callFlags : List Flag := [.localCall, .externalCall, .bifCall, .dynamicCall, .tailCall]

theorem shapeOfKey?_eq_some {key : String} {f : Flag} :
    shapeOfKey? key = some f ↔ f ∈ callFlags ∧ f.name = key := by
  constructor
  · intro h
    exact ⟨List.mem_of_find?_eq_some h, by simpa using List.find?_some h⟩
  · rintro ⟨hf, rfl⟩
    cases f <;> first | rfl | simp [callFlags] at hf

/-! ### Categories and shapes -/

/-- Each name that is listed, with what its key means. -/
def spread {α : Type} (meaning? : String → Option α) (entries : List (String × List String)) :
    List (String × α) :=
  entries.flatMap fun p =>
    match meaning? p.1 with
    | some a => p.2.map fun name => (name, a)
    | none => []

section Spread

variable {α : Type} {meaning? : String → Option α} {entries : List (String × List String)}

theorem mem_spread {name : String} {a : α} :
    (name, a) ∈ spread meaning? entries ↔
      ∃ p ∈ entries, meaning? p.1 = some a ∧ name ∈ p.2 := by
  rw [spread, List.mem_flatMap]
  apply exists_congr
  intro p
  apply and_congr_right
  intro _
  cases meaning? p.1 with
  | none => simp
  | some b => simp [and_comm]

theorem spread_cons {key : String} {names : List String} {a : α} (h : meaning? key = some a) :
    spread meaning? ((key, names) :: entries) =
      names.map (fun name => (name, a)) ++ spread meaning? entries := by
  rw [spread, List.flatMap_cons, h]
  rfl

theorem map_fst_spread (h : ∀ p ∈ entries, ∃ a, meaning? p.1 = some a) :
    (spread meaning? entries).map Prod.fst = entries.flatMap Prod.snd := by
  induction entries with
  | nil => rfl
  | cons p entries ih =>
    rw [List.forall_mem_cons] at h
    obtain ⟨⟨a, ha⟩, hentries⟩ := h
    have hnames : p.2.map (Prod.fst ∘ fun name => (name, a)) = p.2 := List.map_id p.2
    rw [spread_cons ha, List.map_append, ih hentries, List.map_map, hnames, List.flatMap_cons]

end Spread

section Assign

variable {ds : Definitions} {acc out : List (String × Category)}

theorem lookup_eq_none {α : Type} {name : String} {entries : List (String × α)} :
    entries.lookup name = none ↔ name ∉ entries.map Prod.fst := by
  simp only [List.lookup_eq_none_iff, List.mem_map, bne_iff_ne, ne_eq]
  constructor
  · rintro h ⟨p, hp, rfl⟩
    exact h p hp rfl
  · rintro h p hp rfl
    exact h ⟨p, hp, rfl⟩

theorem lookup_eq_some {α : Type} {name : String} {a : α} {entries : List (String × α)}
    (hkeys : (entries.map Prod.fst).Nodup) :
    entries.lookup name = some a ↔ (name, a) ∈ entries := by
  induction entries with
  | nil => simp
  | cons p entries ih =>
    obtain ⟨key, b⟩ := p
    obtain ⟨hkey, hrest⟩ := List.nodup_cons.mp hkeys
    rw [List.lookup_cons, List.mem_cons]
    by_cases hname : name = key
    · subst hname
      have hnot : (name, a) ∉ entries := fun hmem => hkey (List.mem_map.mpr ⟨_, hmem, rfl⟩)
      simp [hnot, eq_comm]
    · have hne : (name == key) = false := by simp [hname]
      rw [hne, ih hrest]
      simp [hname]

theorem assignCategory_eq_ok {key : String} {c : Category} {names : List String}
    (hacc : (acc.map Prod.fst).Nodup) :
    assignCategory ds key c acc names = .ok out ↔
      (∀ name ∈ names, ds.Defines name) ∧ (acc.map Prod.fst ++ names).Nodup ∧
        out = acc ++ names.map fun name => (name, c) := by
  induction names generalizing acc with
  | nil =>
    rw [assignCategory, Except.ok.injEq, List.append_nil, List.map_nil, List.append_nil, eq_comm]
    simp [hacc]
  | cons name names ih =>
    rw [assignCategory, check_bind_eq_ok, checkKnown_eq_ok, List.forall_mem_cons]
    cases hlookup : acc.lookup name with
    | some first =>
      -- The name has a category already.
      have hmem : name ∈ acc.map Prod.fst := by
        by_contra hnot
        rw [lookup_eq_none.mpr hnot] at hlookup
        cases hlookup
      constructor
      · rintro ⟨-, h⟩
        cases h
      · rintro ⟨-, hnodup, -⟩
        exact absurd (List.mem_cons_self ..) (List.disjoint_of_nodup_append hnodup hmem)
    | none =>
      have hnew : ((acc ++ [(name, c)]).map Prod.fst).Nodup := by
        rw [List.map_append, List.map_singleton, ← List.concat_eq_append]
        exact hacc.concat (lookup_eq_none.mp hlookup)
      rw [ih hnew]
      simp [and_assoc]

theorem assignCategories_eq_ok {entries : List (String × List String)}
    (hacc : (acc.map Prod.fst).Nodup) :
    assignCategories ds acc entries = .ok out ↔
      (∀ p ∈ entries, ∃ c, categoryOfKey? p.1 = some c) ∧
      (∀ p ∈ entries, ∀ name ∈ p.2, ds.Defines name) ∧
      (acc.map Prod.fst ++ entries.flatMap Prod.snd).Nodup ∧
      out = acc ++ spread categoryOfKey? entries := by
  induction entries generalizing acc with
  | nil =>
    rw [assignCategories, Except.ok.injEq, eq_comm]
    simp [hacc, spread]
  | cons p entries ih =>
    obtain ⟨key, names⟩ := p
    rw [assignCategories, List.forall_mem_cons, List.forall_mem_cons, List.flatMap_cons]
    cases hkey : categoryOfKey? key with
    | none => simp
    | some c =>
      have hkeys : (acc ++ names.map fun name => (name, c)).map Prod.fst =
          acc.map Prod.fst ++ names := by
        rw [List.map_append, List.map_map]
        exact congrArg _ (List.map_id names)
      rw [bind_eq_ok_iff, spread_cons hkey, ← List.append_assoc, ← List.append_assoc]
      simp only [assignCategory_eq_ok hacc]
      constructor
      · rintro ⟨_, ⟨hnames, hnodup, rfl⟩, hrest⟩
        rw [← hkeys] at hnodup
        obtain ⟨hknown, hdefined, hdistinct, rfl⟩ := (ih hnodup).mp hrest
        rw [hkeys] at hdistinct
        exact ⟨⟨⟨c, rfl⟩, hknown⟩, ⟨hnames, hdefined⟩, hdistinct, rfl⟩
      · rintro ⟨⟨-, hknown⟩, ⟨hnames, hdefined⟩, hdistinct, rfl⟩
        have hnodup := hdistinct.of_append_left
        rw [← hkeys] at hdistinct
        refine ⟨_, ⟨hnames, hnodup, rfl⟩, ?_⟩
        rw [← hkeys] at hnodup
        exact (ih hnodup).mpr ⟨hknown, hdefined, hdistinct, rfl⟩

theorem assignShapes_eq_ok {entries : List (String × List String)} {out : List (String × Flag)} :
    assignShapes ds entries = .ok out ↔
      (∀ p ∈ entries, ∃ f, shapeOfKey? p.1 = some f) ∧
      (∀ p ∈ entries, ∀ name ∈ p.2, ds.Defines name) ∧ out = spread shapeOfKey? entries := by
  induction entries generalizing out with
  | nil =>
    rw [assignShapes, Except.ok.injEq, eq_comm]
    simp [spread]
  | cons p entries ih =>
    obtain ⟨key, names⟩ := p
    rw [assignShapes, List.forall_mem_cons, List.forall_mem_cons]
    cases hkey : shapeOfKey? key with
    | none => simp
    | some f =>
      rw [check_bind_eq_ok, forM_eq_ok (checkKnown_eq_ok ds key), bind_eq_ok_iff, spread_cons hkey]
      simp only [ih]
      constructor
      · rintro ⟨hnames, _, ⟨hknown, hdefined, rfl⟩, hout⟩
        cases hout
        exact ⟨⟨⟨f, rfl⟩, hknown⟩, ⟨hnames, hdefined⟩, rfl⟩
      · rintro ⟨⟨-, hknown⟩, ⟨hnames, hdefined⟩, rfl⟩
        exact ⟨hnames, _, ⟨hknown, hdefined, rfl⟩, rfl⟩

end Assign

/-! ### Entries -/

namespace Classification

variable (cl : Classification)

/-- Every name that is listed under a category, as often as it is listed. -/
def listed : List String := cl.categories.flatMap Prod.snd

def categoryOf : List (String × Category) := spread categoryOfKey? (byKey cl.categories)

def flagsOf : List (String × Flag) :=
  spread shapeOfKey? (byKey cl.callShapes) ++ cl.lineMarkers.map fun name => (name, .lineMarker)

/-- What is said of a definition. -/
def slotOf (d : Definition) : Slot :=
  ⟨d, (cl.categoryOf.lookup d.name).getD .unknown,
    (if d.deprecated then [.deprecated] else []) ++
      cl.flagsOf.filterMap fun p => if p.1 == d.name then some p.2 else none,
    (byKey cl.importOperands).lookup d.name⟩

end Classification

theorem slot_eq_ok {cl : Classification} {d : Definition} {s : Slot} :
    slot cl.categoryOf cl.flagsOf (byKey cl.importOperands) d = .ok s ↔
      (∀ n, (byKey cl.importOperands).lookup d.name = some n → n < d.arity) ∧ s = cl.slotOf d := by
  unfold slot Classification.slotOf
  cases (byKey cl.importOperands).lookup d.name with
  | none =>
    simp only [reduceCtorEq, false_implies, implies_true, true_and]
    constructor
    · rintro ⟨⟩
      rfl
    · rintro rfl
      rfl
  | some n =>
    simp only [Option.some.injEq, forall_eq']
    by_cases hn : n < d.arity
    · simp only [hn, true_and]
      constructor
      · rintro ⟨⟩
        rfl
      · rintro rfl
        rfl
    · simp only [hn, false_and, iff_false]
      nofun

/-- The definition of a number, with what is said of it. -/
def entryAt (ds : Definitions) (cl : Classification) (id : Nat) : Option Slot :=
  (ds.defs.find? fun d => d.id == id).map cl.slotOf

theorem entry_eq_ok (ds : Definitions) (cl : Classification) (id : Nat) (entry : Option Slot) :
    (match ds.defs.find? fun d => d.id == id with
      | none => return none
      | some d =>
        return some (← slot cl.categoryOf cl.flagsOf (byKey cl.importOperands) d)) =
          Except.ok entry ↔
      (∀ d, (ds.defs.find? fun d => d.id == id) = some d →
        ∀ n, (byKey cl.importOperands).lookup d.name = some n → n < d.arity) ∧
      entry = entryAt ds cl id := by
  unfold entryAt
  cases ds.defs.find? fun d => d.id == id with
  | none =>
    simp only [reduceCtorEq, false_implies, implies_true, true_and]
    constructor
    · rintro ⟨⟩
      rfl
    · rintro rfl
      rfl
  | some d =>
    simp only [Option.some.injEq, forall_eq', bind_eq_ok_iff, slot_eq_ok]
    constructor
    · rintro ⟨_, ⟨hpositions, rfl⟩, hentry⟩
      cases hentry
      exact ⟨hpositions, rfl⟩
    · rintro ⟨hpositions, rfl⟩
      exact ⟨_, ⟨hpositions, rfl⟩, rfl⟩

/-! ### Tables -/

structure Consistent (ds : Definitions) (cl : Classification) : Prop where
  categoryKeys : ∀ p ∈ cl.categories, ∃ c : Category, c ≠ .unknown ∧ c.name = p.1
  shapeKeys : ∀ p ∈ cl.callShapes, ∃ f ∈ callFlags, f.name = p.1
  categoryNames : ∀ p ∈ cl.categories, ∀ name ∈ p.2, ds.Defines name
  shapeNames : ∀ p ∈ cl.callShapes, ∀ name ∈ p.2, ds.Defines name
  markerNames : ∀ name ∈ cl.lineMarkers, ds.Defines name
  importNames : ∀ p ∈ cl.importOperands, ds.Defines p.1
  once : cl.listed.Nodup
  complete : ∀ d ∈ ds.defs, d.deprecated = false → d.name ∈ cl.listed
  positions : ∀ p ∈ cl.importOperands, ∀ d ∈ ds.defs, d.name = p.1 → p.2 < d.arity

theorem missing_isEmpty {ds : Definitions} {cats : List (String × Category)} :
    (ds.defs.filter fun d => !d.deprecated && (cats.lookup d.name).isNone).isEmpty = true ↔
      ∀ d ∈ ds.defs, d.deprecated = false → d.name ∈ cats.map Prod.fst := by
  simp only [List.isEmpty_iff, List.filter_eq_nil_iff, Bool.and_eq_true, Bool.not_eq_true',
    Option.isNone_iff_eq_none, lookup_eq_none, not_and, not_not]

section Table

variable {ds : Definitions} {cl : Classification} {slots : List (Option Slot)}

theorem listed_perm (cl : Classification) :
    ((byKey cl.categories).flatMap Prod.snd).Perm cl.listed :=
  (byKey_perm cl.categories).flatMap_right _

/-- Numbers are distinct, so that each definition is found by its number. -/
theorem find?_id (hds : ds.WellFormed) {d : Definition} (hd : d ∈ ds.defs) :
    (ds.defs.find? fun o => o.id == d.id) = some d := by
  cases hfind : ds.defs.find? fun o => o.id == d.id with
  | none =>
    have hnot := List.find?_eq_none.mp hfind d hd
    simp at hnot
  | some o =>
    have ho : o.id = d.id := by simpa using List.find?_some hfind
    rw [List.inj_on_of_nodup_map hds.nodup_ids (List.mem_of_find?_eq_some hfind) hd ho]

theorem maxId_eq (ds : Definitions) : ds.maxId = (ds.defs.map Definition.id).max?.getD 0 := by
  unfold Definitions.maxId
  cases ds.defs with
  | nil => rfl
  | cons d defs =>
    rw [List.map_cons, List.max?_cons', List.foldl_map, List.foldl_cons, Nat.zero_max]
    rfl

theorem le_maxId {d : Definition} (hd : d ∈ ds.defs) : d.id ≤ ds.maxId := by
  rw [maxId_eq]
  exact List.le_max?_getD_of_mem (List.mem_map_of_mem hd)

theorem lookup_importOperands (hkeys : (cl.importOperands.map Prod.fst).Nodup) {name : String}
    {n : Nat} : (byKey cl.importOperands).lookup name = some n ↔ (name, n) ∈ cl.importOperands := by
  have hperm := byKey_perm cl.importOperands
  rw [lookup_eq_some ((hperm.map Prod.fst).nodup_iff.mpr hkeys), hperm.mem_iff]

theorem positions_iff (hds : ds.WellFormed) (hkeys : (cl.importOperands.map Prod.fst).Nodup) :
    (∀ id ∈ List.range (ds.maxId + 1), ∀ d, (ds.defs.find? fun d => d.id == id) = some d →
      ∀ n, (byKey cl.importOperands).lookup d.name = some n → n < d.arity) ↔
    ∀ p ∈ cl.importOperands, ∀ d ∈ ds.defs, d.name = p.1 → p.2 < d.arity := by
  simp only [lookup_importOperands hkeys, List.mem_range]
  constructor
  · rintro h ⟨name, n⟩ hp d hd rfl
    exact h d.id (Nat.lt_succ_of_le (le_maxId hd)) d (find?_id hds hd) n hp
  · intro h id _ d hfind n hn
    exact h _ hn d (List.mem_of_find?_eq_some hfind) rfl

theorem table_eq_ok (hds : ds.WellFormed) (hkeys : (cl.importOperands.map Prod.fst).Nodup) :
    table ds cl = .ok slots ↔
      Consistent ds cl ∧ slots = (List.range (ds.maxId + 1)).map (entryAt ds cl) := by
  have himport : ∀ p : String × Nat,
      checkKnown ds "import_operand" p.1 = .ok () ↔ ds.Defines p.1 := fun p =>
    checkKnown_eq_ok ds "import_operand" p.1
  have hstart : (([] : List (String × Category)).map Prod.fst).Nodup := List.nodup_nil
  have hentries := mapM_eq_ok (entry_eq_ok ds cl) (List.range (ds.maxId + 1)) slots
  rw [positions_iff hds hkeys] at hentries
  unfold table
  rw [bind_eq_ok_iff]
  simp only [assignCategories_eq_ok hstart, bind_eq_ok_iff, assignShapes_eq_ok,
    forM_eq_ok (checkKnown_eq_ok ds _), forM_eq_ok himport, forall_mem_byKey, List.map_nil,
    List.nil_append, (listed_perm cl).nodup_iff, unless_error_eq_ok, missing_isEmpty]
  constructor
  · rintro ⟨_, ⟨hcategories, hlisted, honce, rfl⟩, _, ⟨hshapes, hshaped, rfl⟩, _, hmarkers, _,
      himports, hcomplete, htable⟩
    obtain ⟨hpositions, rfl⟩ := hentries.mp htable
    rw [map_fst_spread (forall_mem_byKey.mpr hcategories)] at hcomplete
    simp only [(listed_perm cl).mem_iff] at hcomplete
    simp only [categoryOfKey?_eq_some] at hcategories
    simp only [shapeOfKey?_eq_some] at hshapes
    exact ⟨⟨hcategories, hshapes, hlisted, hshaped, hmarkers, himports, honce, hcomplete,
      hpositions⟩, rfl⟩
  · rintro ⟨h, rfl⟩
    have hcategories : ∀ p ∈ cl.categories, ∃ c, categoryOfKey? p.1 = some c := by
      simpa only [categoryOfKey?_eq_some] using h.categoryKeys
    have hshapes : ∀ p ∈ cl.callShapes, ∃ f, shapeOfKey? p.1 = some f := by
      simpa only [shapeOfKey?_eq_some] using h.shapeKeys
    have hcomplete := h.complete
    simp only [← (listed_perm cl).mem_iff] at hcomplete
    rw [← map_fst_spread (forall_mem_byKey.mpr hcategories)] at hcomplete
    exact ⟨_, ⟨hcategories, h.categoryNames, h.once, rfl⟩, _, ⟨hshapes, h.shapeNames, rfl⟩, (),
      h.markerNames, (), h.importNames, hcomplete, hentries.mpr ⟨h.positions, rfl⟩⟩

end Table

/-! ### What an entry says -/

/-- The name is listed under this category. -/
def Classification.Lists (cl : Classification) (c : Category) (name : String) : Prop :=
  ∃ p ∈ cl.categories, (c ≠ .unknown ∧ c.name = p.1) ∧ name ∈ p.2

/-- The name is listed under this property of calls. -/
def Classification.Shapes (cl : Classification) (f : Flag) (name : String) : Prop :=
  ∃ p ∈ cl.callShapes, (f ∈ callFlags ∧ f.name = p.1) ∧ name ∈ p.2

/-- The entry has the definition, the category under which it is listed, the properties that it is
given, and the position of its import index. Only withdrawn instructions may be without a category. -/
structure Describes (cl : Classification) (d : Definition) (s : Slot) : Prop where
  definition : s.definition = d
  category : cl.Lists s.category d.name ∨
    (s.category = .unknown ∧ d.deprecated = true ∧ d.name ∉ cl.listed)
  flags : ∀ f, f ∈ s.flags ↔ (d.deprecated = true ∧ f = .deprecated) ∨ cl.Shapes f d.name ∨
    (d.name ∈ cl.lineMarkers ∧ f = .lineMarker)
  importOperand : ∀ n, s.importOperand = some n ↔ (d.name, n) ∈ cl.importOperands

/-- The entry of a number: none if nothing is defined under it, and otherwise the one definition. -/
def IsEntry (ds : Definitions) (cl : Classification) (id : Nat) : Option Slot → Prop
  | none => ∀ d ∈ ds.defs, d.id ≠ id
  | some s => ∃ d ∈ ds.defs, d.id = id ∧ (∀ e ∈ ds.defs, e.id = id → e = d) ∧ Describes cl d s

section Entries

variable {ds : Definitions} {cl : Classification}

theorem Consistent.map_fst_categoryOf (h : Consistent ds cl) :
    (cl.categoryOf.map Prod.fst).Perm cl.listed := by
  have hkeys : ∀ p ∈ cl.categories, ∃ c, categoryOfKey? p.1 = some c := by
    simpa only [categoryOfKey?_eq_some] using h.categoryKeys
  rw [Classification.categoryOf, map_fst_spread (forall_mem_byKey.mpr hkeys)]
  exact listed_perm cl

theorem Consistent.lookup_categoryOf (h : Consistent ds cl) {name : String} {c : Category} :
    cl.categoryOf.lookup name = some c ↔ cl.Lists c name := by
  rw [lookup_eq_some (h.map_fst_categoryOf.nodup_iff.mpr h.once), Classification.categoryOf,
    mem_spread]
  simp only [(byKey_perm cl.categories).mem_iff, categoryOfKey?_eq_some, Classification.Lists]

theorem mem_flagsOf {name : String} {f : Flag} :
    (name, f) ∈ cl.flagsOf ↔ cl.Shapes f name ∨ (name ∈ cl.lineMarkers ∧ f = .lineMarker) := by
  rw [Classification.flagsOf, List.mem_append, mem_spread]
  simp only [(byKey_perm cl.callShapes).mem_iff, shapeOfKey?_eq_some, Classification.Shapes]
  apply or_congr_right
  simp [eq_comm]

theorem mem_flags_slotOf {d : Definition} {f : Flag} :
    f ∈ (cl.slotOf d).flags ↔ (d.deprecated = true ∧ f = .deprecated) ∨ (d.name, f) ∈ cl.flagsOf := by
  rw [Classification.slotOf, List.mem_append, List.mem_filterMap]
  apply or_congr
  · cases d.deprecated <;> simp
  · constructor
    · rintro ⟨⟨name, g⟩, hmem, hg⟩
      by_cases hname : name = d.name
      · simp only [hname, beq_self_eq_true, if_true, Option.some.injEq] at hg
        rw [← hname, ← hg]
        exact hmem
      · simp [hname] at hg
    · intro hmem
      exact ⟨_, hmem, by simp⟩

theorem Consistent.describes (h : Consistent ds cl)
    (hkeys : (cl.importOperands.map Prod.fst).Nodup) {d : Definition} (hd : d ∈ ds.defs) :
    Describes cl d (cl.slotOf d) := by
  constructor
  · rfl
  · change cl.Lists ((cl.categoryOf.lookup d.name).getD .unknown) d.name ∨ _
    cases hlookup : cl.categoryOf.lookup d.name with
    | some c => exact .inl (h.lookup_categoryOf.mp hlookup)
    | none =>
      have hnot : d.name ∉ cl.listed := by
        rw [← h.map_fst_categoryOf.mem_iff]
        exact lookup_eq_none.mp hlookup
      have hdeprecated : d.deprecated = true := by
        by_contra hactive
        exact hnot (h.complete d hd (Bool.eq_false_iff.mpr hactive))
      exact .inr ⟨by simp [Classification.slotOf, hlookup], hdeprecated, hnot⟩
  · intro f
    rw [mem_flags_slotOf, mem_flagsOf]
  · intro n
    exact lookup_importOperands hkeys

theorem Consistent.isEntry (h : Consistent ds cl) (hds : ds.WellFormed)
    (hkeys : (cl.importOperands.map Prod.fst).Nodup) (id : Nat) :
    IsEntry ds cl id (entryAt ds cl id) := by
  unfold entryAt
  cases hfind : ds.defs.find? fun d => d.id == id with
  | none =>
    intro d hd heq
    have hnot := List.find?_eq_none.mp hfind d hd
    simp [heq] at hnot
  | some d =>
    have hd := List.mem_of_find?_eq_some hfind
    have hid : d.id = id := by simpa using List.find?_some hfind
    refine ⟨d, hd, hid, ?_, h.describes hkeys hd⟩
    intro e he heq
    exact List.inj_on_of_nodup_map hds.nodup_ids he hd (heq.trans hid.symm)

end Entries

end BeamScope.InstructionSet
