import BeamScope.Source.Layout

/-!
# Where fragments are laid out

Fragments are taken in the order of their lines, those of one line in the order in which they came.
Each starts on its own line or on the first line that the ones before it leave free. As long as the
last one ends within the greatest line number, the text has exactly the lines of all fragments from
there on.
-/

namespace BeamScope

namespace Ascending

variable {α : Type}

theorem insertKey_append {m : List (Nat × α)} {k : Nat} (v : α) (h : ∀ p ∈ m, p.1 < k) :
    insertKey k v m = m ++ [(k, v)] := by
  induction m with
  | nil => rfl
  | cons p m ih =>
    have hp := h p (List.mem_cons_self ..)
    have hm := ih fun q hq => h q (List.mem_cons_of_mem _ hq)
    rw [insertKey, if_neg (by omega), if_neg (by omega), hm]
    rfl

theorem foldl_insertKey_append {m ps : List (Nat × α)}
    (hps : ps.Pairwise fun p q => p.1 < q.1) (h : ∀ p ∈ m, ∀ q ∈ ps, p.1 < q.1) :
    ps.foldl (fun m p => insertKey p.1 p.2 m) m = m ++ ps := by
  induction ps generalizing m with
  | nil => exact (List.append_nil m).symm
  | cons q ps ih =>
    obtain ⟨hq, hps⟩ := List.pairwise_cons.mp hps
    have hbelow : ∀ p ∈ m ++ [q], ∀ r ∈ ps, p.1 < r.1 := by
      intro p hp r hr
      rcases List.mem_append.mp hp with hp | hp
      · exact h p hp r (List.mem_cons_of_mem _ hr)
      · rw [List.mem_singleton.mp hp]
        exact hq r hr
    rw [List.foldl_cons, insertKey_append _ fun p hp => h p hp q (List.mem_cons_self ..),
      ih hps hbelow, List.append_assoc]
    rfl

theorem lookup_eq_some_iff {m : List (Nat × α)} (h : m.Pairwise fun p q => p.1 < q.1) {k : Nat}
    {v : α} : m.lookup k = some v ↔ (k, v) ∈ m := by
  induction m with
  | nil => simp
  | cons p m ih =>
    obtain ⟨j, w⟩ := p
    obtain ⟨hp, hm⟩ := List.pairwise_cons.mp h
    rw [List.lookup_cons, List.mem_cons]
    by_cases hk : k = j
    · subst hk
      have hnot : (k, v) ∉ m := fun hmem => Nat.lt_irrefl k (hp _ hmem)
      simp [hnot, eq_comm]
    · have hne : (k == j) = false := by simp [hk]
      rw [hne, ih hm]
      simp [hk]

end Ascending

namespace SourceText

open AbstractCode

/-! ### The order of fragments -/

/-- `ordered` has the fragments `fs` by ascending lines, and those of one line as they came. -/
structure InOrder (fs ordered : List Fragment) : Prop where
  ascending : ordered.Pairwise fun f g => f.line ≤ g.line
  stable : ∀ n, ordered.filter (fun f => f.line = n) = fs.filter fun f => f.line = n

theorem byLine_trans (f g h : Fragment) : decide (f.line ≤ g.line) → decide (g.line ≤ h.line) →
    decide (f.line ≤ h.line) := by
  simp only [decide_eq_true_eq]
  omega

theorem byLine_total (f g : Fragment) : decide (f.line ≤ g.line) || decide (g.line ≤ f.line) := by
  simp only [Bool.or_eq_true, decide_eq_true_eq]
  omega

theorem filter_mergeSort (fs : List Fragment) (n : Nat) :
    (fs.mergeSort fun f g => f.line ≤ g.line).filter (fun f => f.line = n) =
      fs.filter fun f => f.line = n := by
  have hsame : (fs.filter fun f => f.line = n).Pairwise fun f g => decide (f.line ≤ g.line) := by
    apply List.pairwise_of_forall_mem_list
    intro f hf g hg
    have hfn := (List.mem_filter.mp hf).2
    have hgn := (List.mem_filter.mp hg).2
    simp only [decide_eq_true_eq] at hfn hgn ⊢
    omega
  have hsub := List.sublist_mergeSort byLine_trans byLine_total hsame List.filter_sublist
  have hfilter := hsub.filter fun f => f.line = n
  rw [List.filter_filter] at hfilter
  simp only [Bool.and_self] at hfilter
  apply (hfilter.eq_of_length ?_).symm
  exact ((List.mergeSort_perm fs _).filter _).length_eq.symm

theorem inOrder_mergeSort (fs : List Fragment) :
    InOrder fs (fs.mergeSort fun f g => f.line ≤ g.line) := by
  have hsorted := List.pairwise_mergeSort byLine_trans byLine_total fs
  refine ⟨hsorted.imp ?_, filter_mergeSort fs⟩
  intro f g h
  exact of_decide_eq_true h

namespace InOrder

variable {fs ordered : List Fragment}

theorem mem_iff (h : InOrder fs ordered) {f : Fragment} : f ∈ ordered ↔ f ∈ fs := by
  have hline := h.stable f.line
  have hleft : f ∈ ordered.filter (fun g => g.line = f.line) ↔ f ∈ ordered := by simp
  have hright : f ∈ fs.filter (fun g => g.line = f.line) ↔ f ∈ fs := by simp
  rw [← hleft, ← hright, hline]

theorem head_le {f g : Fragment} {rest : List Fragment} (h : InOrder fs (f :: rest))
    (hg : g ∈ fs) : f.line ≤ g.line := by
  rcases List.mem_cons.mp (h.mem_iff.mpr hg) with rfl | hrest
  · exact Nat.le_refl _
  · exact (List.pairwise_cons.mp h.ascending).1 g hrest

/-- Only one list has given fragments in order. -/
theorem eq_of_inOrder {other : List Fragment} (h : InOrder other ordered) (hfs : InOrder other fs) :
    ordered = fs := by
  induction ordered generalizing fs other with
  | nil =>
    cases fs with
    | nil => rfl
    | cons g gs =>
      have hmem := hfs.mem_iff.mp (List.mem_cons_self ..)
      cases h.mem_iff.mpr hmem
  | cons f rest ih =>
    cases fs with
    | nil =>
      have hmem := h.mem_iff.mp (List.mem_cons_self ..)
      cases hfs.mem_iff.mpr hmem
    | cons g gs =>
      have hfg := h.head_le (hfs.mem_iff.mp (List.mem_cons_self ..))
      have hgf := hfs.head_le (h.mem_iff.mp (List.mem_cons_self ..))
      have hline : g.line = f.line := Nat.le_antisymm hgf hfg
      have hstable (n : Nat) := (h.stable n).trans (hfs.stable n).symm
      have hhead := hstable f.line
      rw [List.filter_cons_of_pos (by simp), List.filter_cons_of_pos (by simp [hline])] at hhead
      obtain ⟨rfl, -⟩ := List.cons.inj hhead
      have hrest : InOrder gs rest := by
        refine ⟨(List.pairwise_cons.mp h.ascending).2, fun n => ?_⟩
        have hn := hstable n
        by_cases hfn : f.line = n
        · rw [List.filter_cons_of_pos (by simp [hfn]), List.filter_cons_of_pos (by simp [hfn])]
            at hn
          exact (List.cons.inj hn).2
        · rwa [List.filter_cons_of_neg (by simp [hfn]), List.filter_cons_of_neg (by simp [hfn])]
            at hn
      have hself : InOrder gs gs := ⟨(List.pairwise_cons.mp hfs.ascending).2, fun _ => rfl⟩
      rw [ih hrest hself]

end InOrder

/-! ### Placing -/

/-- How many lines a fragment takes, also one without any text. -/
def height (f : Fragment) : Nat := max 1 (Text.linesOf f.text).length

/-- Each fragment with the line on which it starts, if `free` is the first that may be used. -/
def placements : (free : Nat) → List Fragment → List (Nat × Fragment)
  | _, [] => []
  | free, f :: fs => (max f.line free, f) :: placements (max f.line free + height f) fs

/-- The lines of a fragment from the one on which it starts. -/
def linesAt (p : Nat × Fragment) : List (Nat × String) :=
  (Text.linesOf p.2.text).mapIdx fun j line => (p.1 + j, line)

/-- The last fragment ends within the greatest line number. -/
def Fits (placed : List (Nat × Fragment)) : Prop :=
  ∀ p ∈ placed.getLast?, p.1 + height p.2 - 1 ≤ 2 ^ 32 - 1

theorem height_pos (f : Fragment) : 1 ≤ height f := Nat.le_max_left ..

theorem map_snd_placements (free : Nat) (fs : List Fragment) :
    (placements free fs).map Prod.snd = fs := by
  induction fs generalizing free with
  | nil => rfl
  | cons f fs ih => rw [placements, List.map_cons, ih]

theorem le_of_mem_placements {free : Nat} {fs : List Fragment} {p : Nat × Fragment}
    (h : p ∈ placements free fs) : free ≤ p.1 ∧ p.2.line ≤ p.1 := by
  induction fs generalizing free with
  | nil => cases h
  | cons f fs ih =>
    rcases List.mem_cons.mp h with rfl | h
    · exact ⟨Nat.le_max_right .., Nat.le_max_left ..⟩
    · obtain ⟨hfree, hline⟩ := ih h
      exact ⟨by omega, hline⟩

theorem pairwise_placements (free : Nat) (fs : List Fragment) :
    (placements free fs).Pairwise fun p q => p.1 + height p.2 ≤ q.1 := by
  induction fs generalizing free with
  | nil => exact .nil
  | cons f fs ih =>
    apply List.pairwise_cons.mpr ⟨?_, ih _⟩
    intro q hq
    exact (le_of_mem_placements hq).1

theorem mem_linesAt {p : Nat × Fragment} {q : Nat × String} :
    q ∈ linesAt p ↔ ∃ j, (Text.linesOf p.2.text)[j]? = some q.2 ∧ q.1 = p.1 + j := by
  obtain ⟨n, line⟩ := q
  simp only [linesAt, List.mem_iff_getElem?, List.getElem?_mapIdx, Option.map_eq_some_iff,
    Prod.mk.injEq]
  constructor
  · rintro ⟨j, line', hline, rfl, rfl⟩
    exact ⟨j, hline, rfl⟩
  · rintro ⟨j, hline, rfl⟩
    exact ⟨j, line, hline, rfl, rfl⟩

theorem linesAt_bounds {p : Nat × Fragment} {q : Nat × String} (h : q ∈ linesAt p) :
    p.1 ≤ q.1 ∧ q.1 < p.1 + height p.2 := by
  obtain ⟨j, hj, hq⟩ := mem_linesAt.mp h
  obtain ⟨hlt, -⟩ := List.getElem?_eq_some_iff.mp hj
  have hheight : (Text.linesOf p.2.text).length ≤ height p.2 := Nat.le_max_right ..
  omega

theorem pairwise_linesAt (p : Nat × Fragment) :
    (linesAt p).Pairwise fun q r => q.1 < r.1 := by
  rw [List.pairwise_iff_getElem]
  intro i j hi hj hij
  simp only [linesAt, List.getElem_mapIdx]
  omega

theorem pairwise_flatMap_linesAt (free : Nat) (fs : List Fragment) :
    ((placements free fs).flatMap linesAt).Pairwise fun q r => q.1 < r.1 := by
  rw [List.pairwise_flatMap]
  refine ⟨fun p _ => pairwise_linesAt p, (pairwise_placements free fs).imp ?_⟩
  intro p p' hp q hq r hr
  have hq := linesAt_bounds hq
  have hr := linesAt_bounds hr
  omega

/-! ### What placing gives -/

theorem Fits.end_le {placed : List (Nat × Fragment)} (h : Fits placed)
    (hplaced : placed.Pairwise fun p q => p.1 + height p.2 ≤ q.1) :
    ∀ p ∈ placed, p.1 + height p.2 ≤ 2 ^ 32 := by
  induction placed with
  | nil => nofun
  | cons p placed ih =>
    obtain ⟨hp, hplaced⟩ := List.pairwise_cons.mp hplaced
    cases placed with
    | nil =>
      intro q hq
      rw [List.mem_singleton.mp hq]
      have hlast := h p rfl
      omega
    | cons q placed =>
      have htail : Fits (q :: placed) := by
        intro r hr
        apply h r
        rwa [List.getLast?_cons_cons]
      have hends := ih htail hplaced
      intro r hr
      rcases List.mem_cons.mp hr with rfl | hr
      · have hq := hp q (List.mem_cons_self ..)
        have hend := hends q (List.mem_cons_self ..)
        omega
      · exact hends r hr

theorem numbered_eq_linesAt {start : Nat} {f : Fragment} (h : start + height f ≤ 2 ^ 32) :
    numbered start f.text = linesAt (start, f) := by
  have hall : ∀ q ∈ linesAt (start, f), isUInt32 q.1 = true := by
    intro q hq
    have hbound := (linesAt_bounds hq).2
    simp only [isUInt32, decide_eq_true_eq]
    exact Nat.lt_of_lt_of_le hbound h
  exact List.filter_eq_self.mpr hall

theorem length_linesAt (p : Nat × Fragment) : max (linesAt p).length 1 = height p.2 := by
  rw [linesAt, List.length_mapIdx, height, Nat.max_comm]

theorem saturatingAdd_of_lt {a b : Nat} (h : a + b < 2 ^ 32) : saturatingAdd a b = a + b := by
  apply Nat.min_eq_left
  omega

/-- One step: the lines of a fragment are put behind those that are there. -/
theorem entries_extend_linesAt {t : SourceText} {p : Nat × Fragment}
    (h : ∀ q ∈ t.entries, q.1 < p.1) :
    (t.extend (linesAt p)).entries = t.entries ++ linesAt p := by
  apply Ascending.foldl_insertKey_append (pairwise_linesAt p)
  intro q hq r hr
  exact Nat.lt_of_lt_of_le (h q hq) (linesAt_bounds hr).1

theorem value_place_cons (free : Nat) (t : SourceText) (f : Fragment) (fs : List Fragment)
    (hend : max f.line free + height f ≤ 2 ^ 32) :
    (place free t (f :: fs)).value = (place (saturatingAdd (max f.line free) (height f))
      (t.extend (linesAt (max f.line free, f))) fs).value := by
  rw [place, numbered_eq_linesAt hend, length_linesAt]

theorem entries_place {free : Nat} {t : SourceText} {fs : List Fragment}
    (ht : ∀ q ∈ t.entries, q.1 < free)
    (hend : ∀ p ∈ placements free fs, p.1 + height p.2 ≤ 2 ^ 32) :
    (place free t fs).value.entries = t.entries ++ (placements free fs).flatMap linesAt := by
  induction fs generalizing free t with
  | nil => exact (List.append_nil _).symm
  | cons f fs ih =>
    rw [placements] at hend ⊢
    have hfree : free ≤ max f.line free := Nat.le_max_right ..
    have hfirst := hend (max f.line free, f) (List.mem_cons_self ..)
    rw [value_place_cons free t f fs hfirst, List.flatMap_cons]
    generalize max f.line free = start at hend hfree ⊢
    have hextend : (t.extend (linesAt (start, f))).entries = t.entries ++ linesAt (start, f) :=
      entries_extend_linesAt fun q hq => Nat.lt_of_lt_of_le (ht q hq) hfree
    cases fs with
    | nil =>
      rw [place, placements, List.flatMap_nil, List.append_nil]
      exact hextend
    | cons g gs =>
      -- A line is left for the next fragment, so the sum is not cut off.
      have hroom : start + height f < 2 ^ 32 := by
        have hnext := hend (max g.line (start + height f), g)
          (List.mem_cons_of_mem _ (List.mem_cons_self ..))
        have hpos := height_pos g
        dsimp only at hnext
        omega
      have hbelow : ∀ q ∈ (t.extend (linesAt (start, f))).entries, q.1 < start + height f := by
        intro q hq
        rw [hextend, List.mem_append] at hq
        rcases hq with hq | hq
        · have hlt := ht q hq
          omega
        · exact (linesAt_bounds hq).2
      rw [saturatingAdd_of_lt hroom, ih hbelow fun p hp => hend p (List.mem_cons_of_mem _ hp),
        hextend, List.append_assoc]

/-- `t` has the lines of the fragments `placed`, each from its own start on, and no others; every
fragment starts at or below its line and behind the fragment before it. -/
structure LaidOut (placed : List (Nat × Fragment)) (t : SourceText) : Prop where
  entries_eq : t.entries = placed.flatMap linesAt
  ascending : t.entries.Pairwise fun q r => q.1 < r.1
  line_le : ∀ p ∈ placed, p.2.line ≤ p.1
  behind : placed.Pairwise fun p q => p.1 + height p.2 ≤ q.1
  get?_line : ∀ p ∈ placed, ∀ j line, (Text.linesOf p.2.text)[j]? = some line →
    t.get? (p.1 + j) = some line
  line_of_get? : ∀ n line, t.get? n = some line →
    ∃ p ∈ placed, ∃ j, (Text.linesOf p.2.text)[j]? = some line ∧ n = p.1 + j

/-- Fragments in the order of their lines, those of one line as they came, start on their own line,
at least the first, or behind the fragment before them. If the last one ends within the greatest
line number, the text has the lines of every fragment from its start on and nothing else. -/
theorem layout_laidOut {fs ordered : List Fragment} (horder : InOrder fs ordered)
    (hfits : Fits (placements 1 ordered)) :
    (placements 1 ordered).map Prod.snd = ordered ∧
      LaidOut (placements 1 ordered) (layout fs).value := by
  have hends := hfits.end_le (pairwise_placements 1 ordered)
  have hentries : (layout fs).value.entries = (placements 1 ordered).flatMap linesAt := by
    rw [layout, (inOrder_mergeSort fs).eq_of_inOrder horder]
    exact entries_place nofun hends
  have hascending : (layout fs).value.entries.Pairwise fun q r => q.1 < r.1 := by
    rw [hentries]
    exact pairwise_flatMap_linesAt 1 ordered
  have hget (n : Nat) (line : String) : (layout fs).value.get? n = some line ↔
      ∃ p ∈ placements 1 ordered, ∃ j, (Text.linesOf p.2.text)[j]? = some line ∧ n = p.1 + j := by
    rw [get?, Ascending.lookup_eq_some_iff hascending, hentries, List.mem_flatMap]
    simp only [mem_linesAt]
  refine ⟨map_snd_placements 1 ordered, hentries, hascending, ?_, pairwise_placements 1 ordered,
    ?_, fun n line => (hget n line).mp⟩
  · intro p hp
    exact (le_of_mem_placements hp).2
  · intro p hp j line hline
    exact (hget _ line).mpr ⟨p, hp, j, hline, rfl⟩

-- The fragment of line 0 starts on line 1, two of line 2 are pushed down, the first of them without
-- any text, and the last one ends on the greatest line.
theorem layout_laidOut_pushed :
    let a : Fragment := ⟨0, "a() ->\n    1."⟩
    let b : Fragment := ⟨2, ""⟩
    let c : Fragment := ⟨2, "c() ->\n    2."⟩
    let d : Fragment := ⟨4294967295, "d() -> 3."⟩
    InOrder [b, d, c, a] [a, b, c, d] ∧
      placements 1 [a, b, c, d] = [(1, a), (3, b), (4, c), (4294967295, d)] ∧
      Fits (placements 1 [a, b, c, d]) ∧
      (layout [b, d, c, a]).value.entries = [(1, "a() ->"), (2, "    1."), (4, "c() ->"),
        (5, "    2."), (4294967295, "d() -> 3.")] := by
  intro a b c d
  have horder : InOrder [b, d, c, a] [a, b, c, d] := by
    refine ⟨by decide, fun n => ?_⟩
    simp only [List.filter_cons, List.filter_nil, decide_eq_true_eq]
    grind
  have hplaced : placements 1 [a, b, c, d] = [(1, a), (3, b), (4, c), (4294967295, d)] := by decide
  have hfits : Fits (placements 1 [a, b, c, d]) := by
    rw [hplaced]
    intro p hp
    cases hp
    decide
  have hentries := (layout_laidOut horder hfits).2.entries_eq
  rw [hplaced] at hentries
  exact ⟨horder, hplaced, hfits, hentries.trans (by decide)⟩

end SourceText

end BeamScope
